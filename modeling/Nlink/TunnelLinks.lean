import Nlink.GenlRequest
import Nlink.NetworkNames

namespace Nlink.TunnelLinks

open Foundation Netlink
open Nlink.Network (validate)

/-!
# Tunnel links

The links of the tunnel kinds, the request that creates each, and what the
kernel reads from it.
-/

/-- `InterfaceRef`. -/
inductive InterfaceRef where
  | name (name : String)
  | index (index : BitVec 32)

/-!
## Attributes
-/

def IFLA_IFNAME : Nat := 3
def IFLA_MTU : Nat := 4
def IFLA_LINK : Nat := 5
def IFLA_LINKINFO : Nat := 18

def IFLA_INFO_KIND : Nat := 1
def IFLA_INFO_DATA : Nat := 2

def IFLA_GRE_LINK : Nat := 1
def IFLA_GRE_IFLAGS : Nat := 2
def IFLA_GRE_OFLAGS : Nat := 3
def IFLA_GRE_IKEY : Nat := 4
def IFLA_GRE_OKEY : Nat := 5
def IFLA_GRE_LOCAL : Nat := 6
def IFLA_GRE_REMOTE : Nat := 7
def IFLA_GRE_TTL : Nat := 8
def IFLA_GRE_TOS : Nat := 9
def IFLA_GRE_PMTUDISC : Nat := 10
def IFLA_GRE_ENCAP_LIMIT : Nat := 11
def IFLA_GRE_FLOWINFO : Nat := 12
def IFLA_GRE_FLAGS : Nat := 13
def IFLA_GRE_IGNORE_DF : Nat := 19
def IFLA_GRE_FWMARK : Nat := 20

def GRE_KEY : BitVec 16 := 0x2000

def IFLA_IPTUN_LINK : Nat := 1
def IFLA_IPTUN_LOCAL : Nat := 2
def IFLA_IPTUN_REMOTE : Nat := 3
def IFLA_IPTUN_TTL : Nat := 4
def IFLA_IPTUN_TOS : Nat := 5
def IFLA_IPTUN_FLAGS : Nat := 8
def IFLA_IPTUN_PMTUDISC : Nat := 10
def IFLA_IPTUN_FWMARK : Nat := 20

def SIT_ISATAP : BitVec 16 := 0x0001

def IFLA_VTI_LINK : Nat := 1
def IFLA_VTI_IKEY : Nat := 2
def IFLA_VTI_OKEY : Nat := 3
def IFLA_VTI_LOCAL : Nat := 4
def IFLA_VTI_REMOTE : Nat := 5

attribute [simp] IFLA_IFNAME IFLA_MTU IFLA_LINK IFLA_LINKINFO IFLA_INFO_KIND
  IFLA_INFO_DATA IFLA_GRE_LINK IFLA_GRE_IFLAGS IFLA_GRE_OFLAGS IFLA_GRE_IKEY
  IFLA_GRE_OKEY IFLA_GRE_LOCAL IFLA_GRE_REMOTE IFLA_GRE_TTL IFLA_GRE_TOS
  IFLA_GRE_PMTUDISC IFLA_GRE_ENCAP_LIMIT IFLA_GRE_FLOWINFO IFLA_GRE_FLAGS
  IFLA_GRE_IGNORE_DF IFLA_GRE_FWMARK IFLA_IPTUN_LINK IFLA_IPTUN_LOCAL
  IFLA_IPTUN_REMOTE IFLA_IPTUN_TTL IFLA_IPTUN_TOS IFLA_IPTUN_FLAGS
  IFLA_IPTUN_PMTUDISC IFLA_IPTUN_FWMARK IFLA_VTI_LINK IFLA_VTI_IKEY
  IFLA_VTI_OKEY IFLA_VTI_LOCAL IFLA_VTI_REMOTE

/-- `true as u8` is one. -/
def boolByte (value : Bool) : BitVec 8 :=
  if value then 1 else 0

/-!
## Links
-/

structure GreLink where
  name : String
  localAddr : Option Ipv4Addr
  remote : Option Ipv4Addr
  ttl : Option (BitVec 8)
  tos : Option (BitVec 8)
  ikey : Option (BitVec 32)
  okey : Option (BitVec 32)
  pmtudisc : Option Bool
  ignoreDf : Option Bool
  fwmark : Option (BitVec 32)
  mtu : Option (BitVec 32)
  link : Option InterfaceRef

structure GretapLink where
  name : String
  localAddr : Option Ipv4Addr
  remote : Option Ipv4Addr
  ttl : Option (BitVec 8)
  tos : Option (BitVec 8)
  ikey : Option (BitVec 32)
  okey : Option (BitVec 32)
  pmtudisc : Option Bool
  fwmark : Option (BitVec 32)
  mtu : Option (BitVec 32)
  link : Option InterfaceRef

structure Ip6GreLink where
  name : String
  localAddr : Option Ipv6Addr
  remote : Option Ipv6Addr
  ttl : Option (BitVec 8)
  encapLimit : Option (BitVec 8)
  flowinfo : Option (BitVec 32)
  flags : Option (BitVec 32)
  link : Option InterfaceRef

structure Ip6GretapLink where
  name : String
  localAddr : Option Ipv6Addr
  remote : Option Ipv6Addr
  ttl : Option (BitVec 8)
  encapLimit : Option (BitVec 8)
  flowinfo : Option (BitVec 32)
  link : Option InterfaceRef

structure IpipLink where
  name : String
  localAddr : Option Ipv4Addr
  remote : Option Ipv4Addr
  ttl : Option (BitVec 8)
  tos : Option (BitVec 8)
  pmtudisc : Option Bool
  fwmark : Option (BitVec 32)
  mtu : Option (BitVec 32)
  link : Option InterfaceRef

structure SitLink where
  name : String
  localAddr : Option Ipv4Addr
  remote : Option Ipv4Addr
  ttl : Option (BitVec 8)
  tos : Option (BitVec 8)
  pmtudisc : Option Bool
  fwmark : Option (BitVec 32)
  isatap : Bool
  mtu : Option (BitVec 32)
  link : Option InterfaceRef

structure VtiLink where
  name : String
  localAddr : Option Ipv4Addr
  remote : Option Ipv4Addr
  ikey : Option (BitVec 32)
  okey : Option (BitVec 32)
  link : Option InterfaceRef

structure Vti6Link where
  name : String
  localAddr : Option Ipv6Addr
  remote : Option Ipv6Addr
  ikey : Option (BitVec 32)
  okey : Option (BitVec 32)
  link : Option InterfaceRef

/-!
## What is written
-/

section Write

open Writer

variable {order : ByteOrder}

def writeIfname (name : String) : Writer order :=
  str IFLA_IFNAME name

/-- `IFLA_LINKINFO` with a kind and the attributes of that kind. -/
def linkinfo (kind : String) (data : Writer order) : Writer order :=
  nest IFLA_LINKINFO (all [str IFLA_INFO_KIND kind, nest IFLA_INFO_DATA data])

/-- A key with the flag that says there is one. -/
def greKey (flagsType keyType : Nat) (key : BitVec 32) : Writer order :=
  all [u16 flagsType GRE_KEY, u32 keyType key]

def GreLink.data (self : GreLink) : Writer order :=
  all
    [whenSome self.localAddr fun addr => attr IFLA_GRE_LOCAL addr.octets,
      whenSome self.remote fun addr => attr IFLA_GRE_REMOTE addr.octets,
      whenSome self.ttl (u8 IFLA_GRE_TTL),
      whenSome self.tos (u8 IFLA_GRE_TOS),
      whenSome self.ikey (greKey IFLA_GRE_IFLAGS IFLA_GRE_IKEY),
      whenSome self.okey (greKey IFLA_GRE_OFLAGS IFLA_GRE_OKEY),
      whenSome self.pmtudisc fun pmtu => u8 IFLA_GRE_PMTUDISC (boolByte pmtu),
      whenSome self.ignoreDf fun ignore => u8 IFLA_GRE_IGNORE_DF (boolByte ignore),
      whenSome self.fwmark (u32 IFLA_GRE_FWMARK)]

def GreLink.writeTo (self : GreLink) (parentIndex : Option (BitVec 32)) : Writer order :=
  all
    [writeIfname self.name, whenSome self.mtu (u32 IFLA_MTU),
      whenSome parentIndex (u32 IFLA_LINK), linkinfo "gre" self.data]

def GretapLink.data (self : GretapLink) : Writer order :=
  all
    [whenSome self.localAddr fun addr => attr IFLA_GRE_LOCAL addr.octets,
      whenSome self.remote fun addr => attr IFLA_GRE_REMOTE addr.octets,
      whenSome self.ttl (u8 IFLA_GRE_TTL),
      whenSome self.tos (u8 IFLA_GRE_TOS),
      whenSome self.ikey (greKey IFLA_GRE_IFLAGS IFLA_GRE_IKEY),
      whenSome self.okey (greKey IFLA_GRE_OFLAGS IFLA_GRE_OKEY),
      whenSome self.pmtudisc fun pmtu => u8 IFLA_GRE_PMTUDISC (boolByte pmtu),
      whenSome self.fwmark (u32 IFLA_GRE_FWMARK)]

def GretapLink.writeTo (self : GretapLink) (parentIndex : Option (BitVec 32)) : Writer order :=
  all
    [writeIfname self.name, whenSome self.mtu (u32 IFLA_MTU),
      whenSome parentIndex (u32 IFLA_LINK), linkinfo "gretap" self.data]

def Ip6GreLink.data (self : Ip6GreLink) (parentIndex : Option (BitVec 32)) : Writer order :=
  all
    [whenSome parentIndex (u32 IFLA_GRE_LINK),
      whenSome self.localAddr fun addr => attr IFLA_GRE_LOCAL addr.octets,
      whenSome self.remote fun addr => attr IFLA_GRE_REMOTE addr.octets,
      whenSome self.ttl (u8 IFLA_GRE_TTL),
      whenSome self.encapLimit (u8 IFLA_GRE_ENCAP_LIMIT),
      whenSome self.flowinfo (u32Be IFLA_GRE_FLOWINFO),
      whenSome self.flags (u32 IFLA_GRE_FLAGS)]

def Ip6GreLink.writeTo (self : Ip6GreLink) (parentIndex : Option (BitVec 32)) : Writer order :=
  all [writeIfname self.name, linkinfo "ip6gre" (self.data parentIndex)]

def Ip6GretapLink.data (self : Ip6GretapLink) (parentIndex : Option (BitVec 32)) : Writer order :=
  all
    [whenSome parentIndex (u32 IFLA_GRE_LINK),
      whenSome self.localAddr fun addr => attr IFLA_GRE_LOCAL addr.octets,
      whenSome self.remote fun addr => attr IFLA_GRE_REMOTE addr.octets,
      whenSome self.ttl (u8 IFLA_GRE_TTL),
      whenSome self.encapLimit (u8 IFLA_GRE_ENCAP_LIMIT),
      whenSome self.flowinfo (u32Be IFLA_GRE_FLOWINFO)]

def Ip6GretapLink.writeTo (self : Ip6GretapLink) (parentIndex : Option (BitVec 32)) :
    Writer order :=
  all [writeIfname self.name, linkinfo "ip6gretap" (self.data parentIndex)]

def IpipLink.data (self : IpipLink) : Writer order :=
  all
    [whenSome self.localAddr fun addr => attr IFLA_IPTUN_LOCAL addr.octets,
      whenSome self.remote fun addr => attr IFLA_IPTUN_REMOTE addr.octets,
      whenSome self.ttl (u8 IFLA_IPTUN_TTL),
      whenSome self.tos (u8 IFLA_IPTUN_TOS),
      whenSome self.pmtudisc fun pmtu => u8 IFLA_IPTUN_PMTUDISC (boolByte pmtu),
      whenSome self.fwmark (u32 IFLA_IPTUN_FWMARK)]

def IpipLink.writeTo (self : IpipLink) (parentIndex : Option (BitVec 32)) : Writer order :=
  all
    [writeIfname self.name, whenSome self.mtu (u32 IFLA_MTU),
      whenSome parentIndex (u32 IFLA_LINK), linkinfo "ipip" self.data]

def SitLink.data (self : SitLink) : Writer order :=
  all
    [whenSome self.localAddr fun addr => attr IFLA_IPTUN_LOCAL addr.octets,
      whenSome self.remote fun addr => attr IFLA_IPTUN_REMOTE addr.octets,
      whenSome self.ttl (u8 IFLA_IPTUN_TTL),
      whenSome self.tos (u8 IFLA_IPTUN_TOS),
      whenSome self.pmtudisc fun pmtu => u8 IFLA_IPTUN_PMTUDISC (boolByte pmtu),
      whenSome self.fwmark (u32 IFLA_IPTUN_FWMARK),
      when self.isatap (u16 IFLA_IPTUN_FLAGS SIT_ISATAP)]

def SitLink.writeTo (self : SitLink) (parentIndex : Option (BitVec 32)) : Writer order :=
  all
    [writeIfname self.name, whenSome self.mtu (u32 IFLA_MTU),
      whenSome parentIndex (u32 IFLA_LINK), linkinfo "sit" self.data]

def VtiLink.data (self : VtiLink) : Writer order :=
  all
    [whenSome self.localAddr fun addr => attr IFLA_VTI_LOCAL addr.octets,
      whenSome self.remote fun addr => attr IFLA_VTI_REMOTE addr.octets,
      whenSome self.ikey (u32Be IFLA_VTI_IKEY),
      whenSome self.okey (u32Be IFLA_VTI_OKEY)]

def VtiLink.writeTo (self : VtiLink) (parentIndex : Option (BitVec 32)) : Writer order :=
  all [writeIfname self.name, whenSome parentIndex (u32 IFLA_LINK), linkinfo "vti" self.data]

def Vti6Link.data (self : Vti6Link) : Writer order :=
  all
    [whenSome self.localAddr fun addr => attr IFLA_VTI_LOCAL addr.octets,
      whenSome self.remote fun addr => attr IFLA_VTI_REMOTE addr.octets,
      whenSome self.ikey (u32Be IFLA_VTI_IKEY),
      whenSome self.okey (u32Be IFLA_VTI_OKEY)]

def Vti6Link.writeTo (self : Vti6Link) (parentIndex : Option (BitVec 32)) : Writer order :=
  all [writeIfname self.name, whenSome parentIndex (u32 IFLA_LINK), linkinfo "vti6" self.data]

end Write

inductive TunnelKind where
  | gre
  | gretap
  | ip6gre
  | ip6gretap
  | ipip
  | sit
  | vti
  | vti6
  deriving DecidableEq

namespace TunnelKind

def text : TunnelKind → String
  | .gre => "gre"
  | .gretap => "gretap"
  | .ip6gre => "ip6gre"
  | .ip6gretap => "ip6gretap"
  | .ipip => "ipip"
  | .sit => "sit"
  | .vti => "vti"
  | .vti6 => "vti6"

end TunnelKind

/-- A link of one of the tunnel kinds. -/
inductive TunnelLink where
  | gre (link : GreLink)
  | gretap (link : GretapLink)
  | ip6gre (link : Ip6GreLink)
  | ip6gretap (link : Ip6GretapLink)
  | ipip (link : IpipLink)
  | sit (link : SitLink)
  | vti (link : VtiLink)
  | vti6 (link : Vti6Link)

namespace TunnelLink

def name : TunnelLink → String
  | .gre link => link.name
  | .gretap link => link.name
  | .ip6gre link => link.name
  | .ip6gretap link => link.name
  | .ipip link => link.name
  | .sit link => link.name
  | .vti link => link.name
  | .vti6 link => link.name

def kind : TunnelLink → TunnelKind
  | .gre _ => .gre
  | .gretap _ => .gretap
  | .ip6gre _ => .ip6gre
  | .ip6gretap _ => .ip6gretap
  | .ipip _ => .ipip
  | .sit _ => .sit
  | .vti _ => .vti
  | .vti6 _ => .vti6

def parentRef : TunnelLink → Option InterfaceRef
  | .gre link => link.link
  | .gretap link => link.link
  | .ip6gre link => link.link
  | .ip6gretap link => link.link
  | .ipip link => link.link
  | .sit link => link.link
  | .vti link => link.link
  | .vti6 link => link.link

def writeTo {order : ByteOrder} (parentIndex : Option (BitVec 32)) : TunnelLink → Writer order
  | .gre link => link.writeTo parentIndex
  | .gretap link => link.writeTo parentIndex
  | .ip6gre link => link.writeTo parentIndex
  | .ip6gretap link => link.writeTo parentIndex
  | .ipip link => link.writeTo parentIndex
  | .sit link => link.writeTo parentIndex
  | .vti link => link.writeTo parentIndex
  | .vti6 link => link.writeTo parentIndex

end TunnelLink

/-!
## What the kernel reads
-/

namespace TunnelKind

def kinds : List TunnelKind :=
  [.gre, .gretap, .ip6gre, .ip6gretap, .ipip, .sit, .vti, .vti6]

/-- The kind with this text, which ends with a zero byte. -/
def ofBytes (bytes : List UInt8) : Option TunnelKind :=
  kinds.find? fun kind => asBytes kind.text ++ [0] = bytes

end TunnelKind

/-- A tunnel that the kernel creates.  An index of zero is no underlay, and a
setting that was not sent is left to the kernel. -/
structure Tunnel where
  kind : TunnelKind
  underlay : BitVec 32
  localAddr : Option (List UInt8)
  remote : Option (List UInt8)
  ikey : Option (BitVec 32)
  okey : Option (BitVec 32)
  flowinfo : Option (BitVec 32)
  ttl : Option (BitVec 8)
  tos : Option (BitVec 8)
  pmtudisc : Option (BitVec 8)
  ignoreDf : Option (BitVec 8)
  fwmark : Option (BitVec 32)

section Read

variable (order : ByteOrder)

/-- A key is used if its flag is set. -/
def readGreKey (data : List Attribute) (flagsType keyType : Nat) : Option (BitVec 32) :=
  match lastOf data flagsType with
  | some flags =>
      if readU16 .big flags &&& GRE_KEY ≠ 0 then
        some (((lastOf data keyType).map (readU32 .big)).getD 0)
      else
        none
  | none => none

def readUnderlay (data : List Attribute) (linkType : Nat) : BitVec 32 :=
  ((lastOf data linkType).map (readU32 order)).getD 0

def readGre (kind : TunnelKind) (data : List Attribute) : Tunnel where
  kind := kind
  underlay := readUnderlay order data IFLA_GRE_LINK
  localAddr := lastOf data IFLA_GRE_LOCAL
  remote := lastOf data IFLA_GRE_REMOTE
  ikey := readGreKey data IFLA_GRE_IFLAGS IFLA_GRE_IKEY
  okey := readGreKey data IFLA_GRE_OFLAGS IFLA_GRE_OKEY
  flowinfo := (lastOf data IFLA_GRE_FLOWINFO).map (readU32 .big)
  ttl := (lastOf data IFLA_GRE_TTL).map readU8
  tos := (lastOf data IFLA_GRE_TOS).map readU8
  pmtudisc := (lastOf data IFLA_GRE_PMTUDISC).map readU8
  ignoreDf := (lastOf data IFLA_GRE_IGNORE_DF).map readU8
  fwmark := (lastOf data IFLA_GRE_FWMARK).map (readU32 order)

def readIptun (kind : TunnelKind) (data : List Attribute) : Tunnel where
  kind := kind
  underlay := readUnderlay order data IFLA_IPTUN_LINK
  localAddr := lastOf data IFLA_IPTUN_LOCAL
  remote := lastOf data IFLA_IPTUN_REMOTE
  ikey := none
  okey := none
  flowinfo := none
  ttl := (lastOf data IFLA_IPTUN_TTL).map readU8
  tos := (lastOf data IFLA_IPTUN_TOS).map readU8
  pmtudisc := (lastOf data IFLA_IPTUN_PMTUDISC).map readU8
  ignoreDf := none
  fwmark := (lastOf data IFLA_IPTUN_FWMARK).map (readU32 order)

def readVti (kind : TunnelKind) (data : List Attribute) : Tunnel where
  kind := kind
  underlay := readUnderlay order data IFLA_VTI_LINK
  localAddr := lastOf data IFLA_VTI_LOCAL
  remote := lastOf data IFLA_VTI_REMOTE
  ikey := (lastOf data IFLA_VTI_IKEY).map (readU32 .big)
  okey := (lastOf data IFLA_VTI_OKEY).map (readU32 .big)
  flowinfo := none
  ttl := none
  tos := none
  pmtudisc := none
  ignoreDf := none
  fwmark := none

def TunnelKind.read (kind : TunnelKind) (data : List Attribute) : Tunnel :=
  match kind with
  | .gre | .gretap | .ip6gre | .ip6gretap => readGre order kind data
  | .ipip | .sit => readIptun order kind data
  | .vti | .vti6 => readVti order kind data

/-- The tunnel that a request asks for, if it names a kind of tunnel.  The
kernel does not look at `IFLA_LINK` for it. -/
def readTunnel (attrs : List Attribute) : Option Tunnel := do
  let info := attrIter order (← lastOf attrs IFLA_LINKINFO)
  let kind ← TunnelKind.ofBytes (← lastOf info IFLA_INFO_KIND)
  let data := attrIter order ((lastOf info IFLA_INFO_DATA).getD [])
  return kind.read order data

end Read

/-!
## Adding a link
-/

def RTM_NEWLINK : Nat := 16

/-- The header of a link message before its attributes, of all zeros. -/
def ifInfoMsg : List UInt8 :=
  List.replicate 16 0

section AddLink

variable (order : ByteOrder) (resolve : String → Except Network.Error (BitVec 32))

/-- `resolve_interface`, for the index that a name has. -/
def resolveInterface : InterfaceRef → Except Network.Error (BitVec 32)
  | .index index => .ok index
  | .name name => resolve name

def parentIndex (link : TunnelLink) : Except Network.Error (Option (BitVec 32)) :=
  match link.parentRef with
  | some iface => (resolveInterface resolve iface).map some
  | none => .ok none

def newLinkRequest : MessageBuilder :=
  (MessageBuilder.new order RTM_NEWLINK
    (NLM_F_REQUEST ||| NLM_F_ACK ||| NLM_F_CREATE ||| NLM_F_EXCL)).appendBytes ifInfoMsg

/-- What the kernel does with the attributes behind the headers: it creates the
tunnel, unless it refuses to. -/
def create (refuses : Tunnel → Option Nat) (request : MessageBuilder) :
    Except Network.Error Tunnel :=
  match readTunnel order (attrIter order (request.buf.drop 32)) with
  | none => .error (.kernel 22)
  | some tunnel =>
      match refuses tunnel with
      | some errno => .error (.kernel errno)
      | none => .ok tunnel

/-- `add_link`, with the tunnel that the kernel has created on success. -/
def addLink (refuses : Tunnel → Option Nat) (link : TunnelLink) : Except Network.Error Tunnel :=
  match validate link.name with
  | some error => .error error
  | none => do
      let parent ← parentIndex resolve link
      let writer : Writer order := link.writeTo parent
      let created := create order refuses
        (writer.write (newLinkRequest order))
      created.mapError (.withContext s!"add_link({link.name}, kind={link.kind.text})")

end AddLink

end Nlink.TunnelLinks
