import Nlink.Foundation.ByteMasks
import Nlink.TcTypes

namespace Nlink.Tc

open Foundation

/-!
# Flower filters

A flower filter has up to sixteen conditions on a packet, each set by a method
of its own, and is written as attributes.
-/

def ETH_P_ALL : BitVec 16 := 0x0003
def ETH_P_IP : BitVec 16 := 0x0800
def ETH_P_8021Q : BitVec 16 := 0x8100
def ETH_P_IPV6 : BitVec 16 := 0x86DD
def ETH_P_8021AD : BitVec 16 := 0x88A8

def IPPROTO_TCP : BitVec 8 := 6
def IPPROTO_UDP : BitVec 8 := 17
def IPPROTO_SCTP : BitVec 8 := 132

structure FlowerFilter where
  classid : Option TcHandle := none
  ethType : Option (BitVec 16) := none
  ipProto : Option (BitVec 8) := none
  srcIpv4 : Option (BitVec 32 × BitVec 8) := none
  dstIpv4 : Option (BitVec 32 × BitVec 8) := none
  srcIpv6 : Option (BitVec 128 × BitVec 8) := none
  dstIpv6 : Option (BitVec 128 × BitVec 8) := none
  srcPort : Option (BitVec 16) := none
  dstPort : Option (BitVec 16) := none
  srcMac : Option (BitVec 48) := none
  dstMac : Option (BitVec 48) := none
  vlanId : Option (BitVec 16) := none
  vlanPrio : Option (BitVec 8) := none
  ipTos : Option (BitVec 8 × BitVec 8) := none
  ipTtl : Option (BitVec 8 × BitVec 8) := none
  tcpFlags : Option (BitVec 16 × BitVec 16) := none
  flags : BitVec 32 := 0
  priority : BitVec 16 := 0
  protocol : BitVec 16 := ETH_P_ALL
  chain : Option (BitVec 32) := none
  gotoChain : Option (BitVec 32) := none

namespace FlowerFilter

/-!
## Setters
-/

def new : FlowerFilter :=
  {}

def withClassid (filter : FlowerFilter) (classid : TcHandle) : FlowerFilter :=
  { filter with classid := some classid }

def withPriority (filter : FlowerFilter) (prio : BitVec 16) : FlowerFilter :=
  { filter with priority := prio }

def withIpProto (filter : FlowerFilter) (proto : BitVec 8) : FlowerFilter :=
  { filter with ipProto := some proto }

def ipProtoTcp (filter : FlowerFilter) : FlowerFilter :=
  filter.withIpProto IPPROTO_TCP

def ipProtoUdp (filter : FlowerFilter) : FlowerFilter :=
  filter.withIpProto IPPROTO_UDP

/-- An address sets the ethernet type unless it is set. -/
def withSrcIpv4 (filter : FlowerFilter) (addr : BitVec 32) (length : BitVec 8) :
    FlowerFilter :=
  { filter with
    ethType := filter.ethType.or (some ETH_P_IP)
    srcIpv4 := some (addr, length) }

def withDstIpv4 (filter : FlowerFilter) (addr : BitVec 32) (length : BitVec 8) :
    FlowerFilter :=
  { filter with
    ethType := filter.ethType.or (some ETH_P_IP)
    dstIpv4 := some (addr, length) }

def withSrcIpv6 (filter : FlowerFilter) (addr : BitVec 128) (length : BitVec 8) :
    FlowerFilter :=
  { filter with
    ethType := filter.ethType.or (some ETH_P_IPV6)
    srcIpv6 := some (addr, length) }

def withDstIpv6 (filter : FlowerFilter) (addr : BitVec 128) (length : BitVec 8) :
    FlowerFilter :=
  { filter with
    ethType := filter.ethType.or (some ETH_P_IPV6)
    dstIpv6 := some (addr, length) }

def withDstPort (filter : FlowerFilter) (port : BitVec 16) : FlowerFilter :=
  { filter with dstPort := some port }

/-- `FlowerFilter::new().classid(classid).priority(priority)`. -/
def selecting (classid : TcHandle) (priority : BitVec 16) : FlowerFilter :=
  (new.withClassid classid).withPriority priority

end FlowerFilter

/-!
## Masks
-/

def ipv4Mask (length : BitVec 8) : BitVec 32 :=
  if 32 ≤ length.toNat then
    0xFFFFFFFF
  else if length.toNat = 0 then
    0
  else
    ~~~((1#32 <<< (32 - length.toNat)) - 1)

def ipv6OfOctets (octets : List (BitVec 8)) : BitVec 128 :=
  octets.foldl (fun bits octet => bits <<< 8 ||| octet.setWidth 128) 0

def ipv6Mask (length : BitVec 8) : BitVec 128 :=
  if 128 ≤ length.toNat then
    ipv6OfOctets (List.replicate 16 0xFF)
  else if length.toNat = 0 then
    ipv6OfOctets (List.replicate 16 0)
  else
    let fullBytes := length.toNat / 8
    let remainingBits := length.toNat % 8
    let bytes := List.replicate fullBytes 0xFF ++
      List.replicate (16 - fullBytes) 0
    ipv6OfOctets
      (if fullBytes < 16 ∧ 0 < remainingBits then
        bytes.set fullBytes (~~~((1#8 <<< (8 - remainingBits)) - 1))
      else
        bytes)

theorem ipv4Mask_eq (length : BitVec 8) : ipv4Mask length = prefixMask 32 length.toNat := by
  revert length
  decide +kernel

theorem ipv6Mask_eq (length : BitVec 8) : ipv6Mask length = prefixMask 128 length.toNat := by
  revert length
  decide +kernel

/-!
## Attributes
-/

/-- The attributes of a flower filter.  A key that has a mask is a pair with
it, and the chain is that of a goto action. -/
structure FlowerAttrs where
  classid : Option TcHandle
  flags : Option (BitVec 32)
  keyEthType : Option (BitVec 16)
  keyIpProto : Option (BitVec 8)
  keyIpv4Src : Option (BitVec 32 × BitVec 32)
  keyIpv4Dst : Option (BitVec 32 × BitVec 32)
  keyIpv6Src : Option (BitVec 128 × BitVec 128)
  keyIpv6Dst : Option (BitVec 128 × BitVec 128)
  keyTcpSrc : Option (BitVec 16)
  keyUdpSrc : Option (BitVec 16)
  keyTcpDst : Option (BitVec 16)
  keyUdpDst : Option (BitVec 16)
  keyEthSrc : Option (BitVec 48 × BitVec 48)
  keyEthDst : Option (BitVec 48 × BitVec 48)
  keyVlanId : Option (BitVec 16)
  keyVlanPrio : Option (BitVec 8)
  keyIpTos : Option (BitVec 8 × BitVec 8)
  keyIpTtl : Option (BitVec 8 × BitVec 8)
  keyTcpFlags : Option (BitVec 16 × BitVec 16)
  act : Option (BitVec 32)
  deriving DecidableEq

namespace FlowerFilter

/-- A port is written for TCP and for UDP only. -/
def portFor (filter : FlowerFilter) (proto : BitVec 8) (port : Option (BitVec 16)) :
    Option (BitVec 16) :=
  if filter.ipProto = some proto then port else none

/-- `write_options`, which does not fail. -/
def writeOptions (filter : FlowerFilter) : FlowerAttrs where
  classid := filter.classid
  flags := if filter.flags ≠ 0 then some filter.flags else none
  keyEthType := filter.ethType
  keyIpProto := filter.ipProto
  keyIpv4Src := filter.srcIpv4.map fun key => (key.1, ipv4Mask key.2)
  keyIpv4Dst := filter.dstIpv4.map fun key => (key.1, ipv4Mask key.2)
  keyIpv6Src := filter.srcIpv6.map fun key => (key.1, ipv6Mask key.2)
  keyIpv6Dst := filter.dstIpv6.map fun key => (key.1, ipv6Mask key.2)
  keyTcpSrc := filter.portFor IPPROTO_TCP filter.srcPort
  keyUdpSrc := filter.portFor IPPROTO_UDP filter.srcPort
  keyTcpDst := filter.portFor IPPROTO_TCP filter.dstPort
  keyUdpDst := filter.portFor IPPROTO_UDP filter.dstPort
  keyEthSrc := filter.srcMac.map fun mac => (mac, BitVec.allOnes 48)
  keyEthDst := filter.dstMac.map fun mac => (mac, BitVec.allOnes 48)
  keyVlanId := filter.vlanId
  keyVlanPrio := filter.vlanPrio
  keyIpTos := filter.ipTos
  keyIpTtl := filter.ipTtl
  keyTcpFlags := filter.tcpFlags
  act := filter.gotoChain

end FlowerFilter

/-!
## Packets
-/

def isIpType (ethType : BitVec 16) : Bool :=
  ethType = ETH_P_IP || ethType = ETH_P_IPV6

def isVlanType (ethType : BitVec 16) : Bool :=
  ethType = ETH_P_8021Q || ethType = ETH_P_8021AD

inductive Transport where
  | tcp (src dst flags : BitVec 16)
  | udp (src dst : BitVec 16)
  | sctp (src dst : BitVec 16)
  | other (proto : BitVec 8)
      (isOther : proto ≠ IPPROTO_TCP ∧ proto ≠ IPPROTO_UDP ∧ proto ≠ IPPROTO_SCTP)

inductive Addresses where
  | v4 (src dst : BitVec 32)
  | v6 (src dst : BitVec 128)

structure IpPacket where
  addresses : Addresses
  tos : BitVec 8
  ttl : BitVec 8
  transport : Transport

inductive Network where
  | ip (packet : IpPacket)
  | other (ethType : BitVec 16) (isOther : isIpType ethType = false ∧ isVlanType ethType = false)

structure VlanTag where
  tpid : BitVec 16
  isTpid : isVlanType tpid = true
  id : BitVec 12
  prio : BitVec 3

structure Packet where
  srcMac : BitVec 48
  dstMac : BitVec 48
  vlan : Option VlanTag
  network : Network

namespace Transport

def proto : Transport → BitVec 8
  | .tcp _ _ _ => IPPROTO_TCP
  | .udp _ _ => IPPROTO_UDP
  | .sctp _ _ => IPPROTO_SCTP
  | .other proto _ => proto

def srcPort : Transport → Option (BitVec 16)
  | .tcp src _ _ => some src
  | .udp src _ => some src
  | .sctp src _ => some src
  | .other _ _ => none

def dstPort : Transport → Option (BitVec 16)
  | .tcp _ dst _ => some dst
  | .udp _ dst => some dst
  | .sctp _ dst => some dst
  | .other _ _ => none

def tcpFlags : Transport → Option (BitVec 16)
  | .tcp _ _ flags => some flags
  | _ => none

end Transport

namespace Addresses

def ethType : Addresses → BitVec 16
  | .v4 _ _ => ETH_P_IP
  | .v6 _ _ => ETH_P_IPV6

def srcIpv4 : Addresses → Option (BitVec 32)
  | .v4 src _ => some src
  | .v6 _ _ => none

def dstIpv4 : Addresses → Option (BitVec 32)
  | .v4 _ dst => some dst
  | .v6 _ _ => none

def srcIpv6 : Addresses → Option (BitVec 128)
  | .v4 _ _ => none
  | .v6 src _ => some src

def dstIpv6 : Addresses → Option (BitVec 128)
  | .v4 _ _ => none
  | .v6 _ dst => some dst

end Addresses

namespace Packet

def ip (packet : Packet) : Option IpPacket :=
  match packet.network with
  | .ip packet => some packet
  | .other _ _ => none

def networkType (packet : Packet) : BitVec 16 :=
  match packet.network with
  | .ip packet => packet.addresses.ethType
  | .other ethType _ => ethType

/-- An ethernet type of VLANs is that of the tag. -/
def hasEthType (packet : Packet) (ethType : BitVec 16) : Bool :=
  if isVlanType ethType then
    packet.vlan.any fun tag => tag.tpid = ethType
  else
    packet.networkType = ethType

end Packet

/-!
## Keys
-/

/-- A key with a mask agrees with what the packet has; a packet that has no
such field does not agree. -/
def keyAgrees (key : Option (BitVec width × BitVec width)) (value : Option (BitVec width)) : Bool :=
  key.all fun wanted => value.any fun bits => bits &&& wanted.2 = wanted.1 &&& wanted.2

/-- A key without a mask. -/
def keyIs (key value : Option (BitVec width)) : Bool :=
  key.all fun wanted => value = some wanted

namespace FlowerAttrs

variable (attrs : FlowerAttrs)

def honoursIp : Bool :=
  attrs.keyEthType.any isIpType

def honoursVlan : Bool :=
  attrs.keyEthType.any isVlanType

/-- Keys of a transport protocol are honoured. -/
def honoursProto (proto : BitVec 8) : Bool :=
  attrs.honoursIp && decide (attrs.keyIpProto = some proto)

/-- IPv6 addresses are honoured. -/
def honoursIpv6 : Bool :=
  attrs.keyIpv4Src.isNone && attrs.keyIpv4Dst.isNone

def selects (packet : Packet) : Bool :=
  let ip := packet.ip
  let transport := ip.map (·.transport)
  attrs.keyEthType.all packet.hasEthType &&
  keyAgrees attrs.keyEthSrc (some packet.srcMac) &&
  keyAgrees attrs.keyEthDst (some packet.dstMac) &&
  (!attrs.honoursVlan || keyIs attrs.keyVlanId (packet.vlan.map (·.id.setWidth 16)) &&
    keyIs attrs.keyVlanPrio (packet.vlan.map (·.prio.setWidth 8))) &&
  (!attrs.honoursIp || keyIs attrs.keyIpProto (transport.map (·.proto)) &&
    keyAgrees attrs.keyIpTos (ip.map (·.tos)) &&
    keyAgrees attrs.keyIpTtl (ip.map (·.ttl))) &&
  keyAgrees attrs.keyIpv4Src (ip.bind (·.addresses.srcIpv4)) &&
  keyAgrees attrs.keyIpv4Dst (ip.bind (·.addresses.dstIpv4)) &&
  (!attrs.honoursIpv6 || keyAgrees attrs.keyIpv6Src (ip.bind (·.addresses.srcIpv6)) &&
    keyAgrees attrs.keyIpv6Dst (ip.bind (·.addresses.dstIpv6))) &&
  (!attrs.honoursProto IPPROTO_TCP || keyIs attrs.keyTcpSrc (transport.bind (·.srcPort)) &&
    keyIs attrs.keyTcpDst (transport.bind (·.dstPort)) &&
    keyAgrees attrs.keyTcpFlags (transport.bind (·.tcpFlags))) &&
  (!attrs.honoursProto IPPROTO_UDP || keyIs attrs.keyUdpSrc (transport.bind (·.srcPort)) &&
    keyIs attrs.keyUdpDst (transport.bind (·.dstPort)))

end FlowerAttrs

end Nlink.Tc
