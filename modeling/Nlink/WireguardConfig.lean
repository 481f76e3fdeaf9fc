import Nlink.NetlinkAttrTree
import Nlink.NetworkDiff
import Nlink.NftablesRuleset

namespace Nlink.Wireguard

open Foundation Netlink Network

/-!
# WireGuard devices

A device has a key pair, a port, a mark and peers; a peer is named by its public
key.  This is what the library reads from the kernel.
-/

def WG_KEY_LEN : Nat := 32

/-- A key: 32 bytes. -/
structure Key where
  bytes : List UInt8
  length_eq : bytes.length = WG_KEY_LEN
  deriving DecidableEq

/-- The kernel's key of a device or peer that has none. -/
def Key.zero : Key where
  bytes := List.replicate WG_KEY_LEN 0
  length_eq := List.length_replicate

/-- `std::net::SocketAddr`. -/
inductive SocketAddr where
  | v4 (ip : BitVec 32) (port : BitVec 16)
  | v6 (ip : BitVec 128) (port : BitVec 16) (flowinfo scopeId : BitVec 32)
  deriving DecidableEq

/-- `std::time::SystemTime`, as the time since the epoch. -/
structure SystemTime where
  secs : Nat
  nanos : Nat

/-- An allowed IP range of a peer. -/
structure AllowedIp where
  addr : IpAddr
  cidr : UInt8
  deriving DecidableEq

structure WgPeer where
  publicKey : Key
  presharedKey : Option Key
  endpoint : Option SocketAddr
  persistentKeepalive : Option (BitVec 16)
  lastHandshake : Option SystemTime
  rxBytes : BitVec 64
  txBytes : BitVec 64
  allowedIps : List AllowedIp
  protocolVersion : Option (BitVec 32)

/-- `WgPeer::default`. -/
def WgPeer.default : WgPeer where
  publicKey := Key.zero
  presharedKey := none
  endpoint := none
  persistentKeepalive := none
  lastHandshake := none
  rxBytes := 0
  txBytes := 0
  allowedIps := []
  protocolVersion := none

structure WgDevice where
  ifindex : Option (BitVec 32)
  ifname : Option String
  privateKey : Option Key
  publicKey : Option Key
  listenPort : Option (BitVec 16)
  fwmark : Option (BitVec 32)
  peers : List WgPeer

/-- `WgDevice::new`. -/
def WgDevice.new : WgDevice where
  ifindex := none
  ifname := none
  privateKey := none
  publicKey := none
  listenPort := none
  fwmark := none
  peers := []

/-- The errors of reading and writing devices. -/
inductive Error where
  | invalidAttribute (text : String)
  | interfaceNotFound (name : String)
  | invalidMessage (text : String)
  | kernel (errno : Nat)

def WgDeviceAttr.Ifindex : Nat := 1
def WgDeviceAttr.Ifname : Nat := 2
def WgDeviceAttr.PrivateKey : Nat := 3
def WgDeviceAttr.PublicKey : Nat := 4
def WgDeviceAttr.Flags : Nat := 5
def WgDeviceAttr.ListenPort : Nat := 6
def WgDeviceAttr.Fwmark : Nat := 7
def WgDeviceAttr.Peers : Nat := 8

def WgPeerAttr.PublicKey : Nat := 1
def WgPeerAttr.PresharedKey : Nat := 2
def WgPeerAttr.Flags : Nat := 3
def WgPeerAttr.Endpoint : Nat := 4
def WgPeerAttr.PersistentKeepalive : Nat := 5
def WgPeerAttr.LastHandshake : Nat := 6
def WgPeerAttr.RxBytes : Nat := 7
def WgPeerAttr.TxBytes : Nat := 8
def WgPeerAttr.AllowedIps : Nat := 9
def WgPeerAttr.ProtocolVersion : Nat := 10

def WgAllowedIpAttr.Family : Nat := 1
def WgAllowedIpAttr.IpAddr : Nat := 2
def WgAllowedIpAttr.CidrMask : Nat := 3

def AF_INET : Nat := 2
def AF_INET6 : Nat := 10

namespace AllowedIp

/-- `AllowedIp::family`. -/
def family (ip : AllowedIp) : Nat :=
  match ip.addr with
  | .v4 _ => AF_INET
  | .v6 _ => AF_INET6

/-- `AllowedIp::addr_bytes`. -/
def addrBytes (ip : AllowedIp) : List UInt8 :=
  match ip.addr with
  | .v4 bits => ByteOrder.big.toBytes 4 bits.toNat
  | .v6 bits => ByteOrder.big.toBytes 16 bits.toNat

end AllowedIp

section Reading

variable (order : ByteOrder)

/-- The number in the first bytes of a payload; the error names its type. -/
def getNe (width : Nat) (type : String) (data : List UInt8) : Except Error (BitVec (8 * width)) :=
  if data.length < width then
    .error (.invalidAttribute ("truncated " ++ type ++ " attribute"))
  else
    .ok (BitVec.ofNat (8 * width) (order.ofBytes (data.take width)))

/-- `get::u16_ne`. -/
def getU16Ne (data : List UInt8) : Except Error (BitVec 16) :=
  getNe order 2 "u16" data

/-- `get::u32_ne`. -/
def getU32Ne (data : List UInt8) : Except Error (BitVec 32) :=
  getNe order 4 "u32" data

/-- `get::u64_ne`. -/
def getU64Ne (data : List UInt8) : Except Error (BitVec 64) :=
  getNe order 8 "u64" data

/-- `get::u8`. -/
def getU8 : List UInt8 → Except Error UInt8
  | [] => .error (.invalidAttribute "empty u8 attribute")
  | byte :: _ => .ok byte

/-- `get::string`: up to the first NUL; the text of a UTF-8 error is left
out. -/
def getString (data : List UInt8) : Except Error String :=
  match Nftables.fromUtf8 (data.takeWhile (· != 0)) with
  | some text => .ok text
  | none => .error (.invalidAttribute "invalid UTF-8")

/-- The key at the front of a payload that is long enough. -/
def takeKey (payload : List UInt8) : Option Key :=
  if long : WG_KEY_LEN ≤ payload.length then
    some
      { bytes := payload.take WG_KEY_LEN
        length_eq := by rw [List.length_take, Nat.min_eq_left long] }
  else
    none

def nonZeroKey (key : Key) : Option Key :=
  if key = Key.zero then none else some key

/-- `parse_timespec`; the sum with the epoch does not overflow. -/
def parseTimespec (data : List UInt8) : Option SystemTime :=
  if data.length < 16 then
    none
  else
    let secs := (BitVec.ofNat 64 (order.ofBytes (data.take 8))).toInt
    let nsecs := (BitVec.ofNat 64 (order.ofBytes ((data.drop 8).take 8))).toInt
    if secs = 0 ∧ nsecs = 0 then
      none
    else if secs < 0 then
      none
    else if nsecs < 0 ∨ 1000000000 ≤ nsecs then
      none
    else
      some { secs := secs.toNat, nanos := nsecs.toNat }

/-- `sockaddr_to_bytes`. -/
def sockaddrToBytes : SocketAddr → List UInt8
  | .v4 ip port =>
      order.toBytes 2 AF_INET ++ ByteOrder.big.toBytes 2 port.toNat ++
        ByteOrder.big.toBytes 4 ip.toNat ++ List.replicate 8 0
  | .v6 ip port flowinfo scopeId =>
      order.toBytes 2 AF_INET6 ++ ByteOrder.big.toBytes 2 port.toNat ++
        order.toBytes 4 flowinfo.toNat ++ ByteOrder.big.toBytes 16 ip.toNat ++
        order.toBytes 4 scopeId.toNat

/-- `parse_sockaddr`; the flow label is not read. -/
def parseSockaddr (data : List UInt8) : Option SocketAddr :=
  if data.length < 4 then
    none
  else
    let family := order.ofBytes (data.take 2)
    let port := BitVec.ofNat 16 (ByteOrder.big.ofBytes ((data.drop 2).take 2))
    if family = AF_INET ∧ 8 ≤ data.length then
      some (.v4 (BitVec.ofNat 32 (ByteOrder.big.ofBytes ((data.drop 4).take 4))) port)
    else if family = AF_INET6 ∧ 24 ≤ data.length then
      let scopeId :=
        if 28 ≤ data.length then BitVec.ofNat 32 (order.ofBytes ((data.drop 24).take 4)) else 0
      some (.v6 (BitVec.ofNat 128 (ByteOrder.big.ofBytes ((data.drop 8).take 16))) port 0 scopeId)
    else
      none

/-- What has been read of an allowed IP. -/
structure AllowedIpParts where
  family : Option Nat
  addrBytes : Option (List UInt8)
  cidr : Option UInt8

def allowedIpAttr (parts : AllowedIpParts) (attr : Nat × List UInt8) :
    Except Error AllowedIpParts :=
  if attr.1 = WgAllowedIpAttr.Family then do
    let family ← getU16Ne order attr.2
    return { parts with family := some family.toNat }
  else if attr.1 = WgAllowedIpAttr.IpAddr then
    .ok { parts with addrBytes := some attr.2 }
  else if attr.1 = WgAllowedIpAttr.CidrMask then do
    let cidr ← getU8 attr.2
    return { parts with cidr := some cidr }
  else
    .ok parts

/-- The allowed IP that the parts spell, if they do. -/
def AllowedIpParts.assemble (parts : AllowedIpParts) : Option AllowedIp :=
  match parts.family, parts.addrBytes, parts.cidr with
  | some family, some addrBytes, some cidr =>
      if family = AF_INET ∧ 4 ≤ addrBytes.length then
        some
          { addr := .v4 (BitVec.ofNat 32 (ByteOrder.big.ofBytes (addrBytes.take 4)))
            cidr := cidr }
      else if family = AF_INET6 ∧ 16 ≤ addrBytes.length then
        some
          { addr := .v6 (BitVec.ofNat 128 (ByteOrder.big.ofBytes (addrBytes.take 16)))
            cidr := cidr }
      else
        none
  | _, _, _ => none

/-- `parse_allowed_ip_attrs`. -/
def parseAllowedIpAttrs (data : List UInt8) : Except Error (Option AllowedIp) := do
  let parts ← (attrIter order data).foldlM (allowedIpAttr order)
    { family := none, addrBytes := none, cidr := none }
  return parts.assemble

/-- `parse_allowed_ips_attr`: entries that are not understood are skipped. -/
def parseAllowedIpsAttr (data : List UInt8) (allowedIps : List AllowedIp) :
    Except Error (List AllowedIp) :=
  (attrIter order data).foldlM
    (fun ips attr => do
      let ip ← parseAllowedIpAttrs order attr.2
      return ips ++ ip.toList)
    allowedIps

def peerAttr (peer : WgPeer) (attr : Nat × List UInt8) : Except Error WgPeer :=
  if attr.1 = WgPeerAttr.PublicKey then
    .ok { peer with publicKey := (takeKey attr.2).getD peer.publicKey }
  else if attr.1 = WgPeerAttr.PresharedKey then
    match (takeKey attr.2).bind nonZeroKey with
    | some key => .ok { peer with presharedKey := some key }
    | none => .ok peer
  else if attr.1 = WgPeerAttr.Endpoint then
    .ok { peer with endpoint := parseSockaddr order attr.2 }
  else if attr.1 = WgPeerAttr.PersistentKeepalive then do
    let interval ← getU16Ne order attr.2
    return { peer with persistentKeepalive := some interval }
  else if attr.1 = WgPeerAttr.LastHandshake then
    .ok { peer with lastHandshake := parseTimespec order attr.2 }
  else if attr.1 = WgPeerAttr.RxBytes then do
    let rxBytes ← getU64Ne order attr.2
    return { peer with rxBytes := rxBytes }
  else if attr.1 = WgPeerAttr.TxBytes then do
    let txBytes ← getU64Ne order attr.2
    return { peer with txBytes := txBytes }
  else if attr.1 = WgPeerAttr.AllowedIps then do
    let allowedIps ← parseAllowedIpsAttr order attr.2 peer.allowedIps
    return { peer with allowedIps := allowedIps }
  else if attr.1 = WgPeerAttr.ProtocolVersion then do
    let version ← getU32Ne order attr.2
    return { peer with protocolVersion := some version }
  else
    .ok peer

/-- `parse_peer_attrs`. -/
def parsePeerAttrs (data : List UInt8) : Except Error WgPeer :=
  (attrIter order data).foldlM (peerAttr order) WgPeer.default

/-- `parse_peers_attr`: every entry is a peer. -/
def parsePeersAttr (data : List UInt8) (peers : List WgPeer) : Except Error (List WgPeer) :=
  (attrIter order data).foldlM
    (fun peers attr => do
      let peer ← parsePeerAttrs order attr.2
      return peers ++ [peer])
    peers

/-- `parse_device_attr_scalar`. -/
def parseDeviceAttrScalar (device : WgDevice) (attr : Nat × List UInt8) : Except Error WgDevice :=
  if attr.1 = WgDeviceAttr.Ifindex then do
    let ifindex ← getU32Ne order attr.2
    return { device with ifindex := some ifindex }
  else if attr.1 = WgDeviceAttr.Ifname then do
    let ifname ← getString attr.2
    return { device with ifname := some ifname }
  else if attr.1 = WgDeviceAttr.PrivateKey then
    match takeKey attr.2 with
    | some key => .ok { device with privateKey := nonZeroKey key }
    | none => .ok device
  else if attr.1 = WgDeviceAttr.PublicKey then
    match takeKey attr.2 with
    | some key => .ok { device with publicKey := nonZeroKey key }
    | none => .ok device
  else if attr.1 = WgDeviceAttr.ListenPort then do
    let port ← getU16Ne order attr.2
    return { device with listenPort := some port }
  else if attr.1 = WgDeviceAttr.Fwmark then do
    let mark ← getU32Ne order attr.2
    return { device with fwmark := some mark }
  else
    .ok device

def deviceAttr (device : WgDevice) (attr : Nat × List UInt8) : Except Error WgDevice :=
  if attr.1 = WgDeviceAttr.Peers then do
    let peers ← parsePeersAttr order attr.2 device.peers
    return { device with peers := peers }
  else
    parseDeviceAttrScalar order device attr

/-- `parse_device_attrs`. -/
def parseDeviceAttrs (data : List UInt8) (device : WgDevice) : Except Error WgDevice :=
  (attrIter order data).foldlM (deviceAttr order) device

/-- One message of a dump; a message without headers is skipped. -/
def deviceResponse (device : WgDevice) (response : List UInt8) : Except Error WgDevice :=
  if response.length < NLMSG_HDRLEN + GENL_HDRLEN then
    .ok device
  else
    parseDeviceAttrs order (response.drop (NLMSG_HDRLEN + GENL_HDRLEN)) device

/-- `get_device_by_name`, from the messages of the dump. -/
def getDeviceByName (ifname : String) (responses : List (List UInt8)) : Except Error WgDevice :=
  if responses = [] then
    .error (.interfaceNotFound ifname)
  else
    responses.foldlM (deviceResponse order) WgDevice.new

end Reading

/-!
## Declared devices and their difference from the kernel's

A configuration declares devices and their peers.  The difference lists, for
each device, the scalars that differ, the peers that the kernel does not have,
those that differ and those that are not declared.
-/

/-- `std::time::Duration`. -/
structure Duration where
  secs : BitVec 64
  nanos : BitVec 32
  deriving DecidableEq

/-- `Duration::from_secs`. -/
def Duration.fromSecs (secs : Nat) : Duration where
  secs := BitVec.ofNat 64 secs
  nanos := 0

/-- The interval for the kernel: whole seconds, saturated to 16 bits. -/
def Duration.wantSecs (duration : Duration) : BitVec 16 :=
  if duration.secs.toNat ≤ 65535 then BitVec.ofNat 16 duration.secs.toNat else 65535

structure DeclaredWgPeer where
  publicKey : Key
  presharedKey : Option Key
  endpoint : Option SocketAddr
  persistentKeepalive : Option Duration
  allowedIps : List AllowedIp
  deriving DecidableEq

structure DeclaredWgDevice where
  ifname : String
  privateKey : Option Key
  listenPort : Option (BitVec 16)
  fwmark : Option (BitVec 32)
  peers : List DeclaredWgPeer
  deriving DecidableEq

structure WireguardConfig where
  devices : List DeclaredWgDevice
  deriving DecidableEq

structure PeerChanges where
  presharedKeySet : Bool
  endpointSet : Bool
  persistentKeepaliveSet : Bool
  allowedIpsSet : Bool

/-- `PeerChanges::is_empty`. -/
def PeerChanges.isEmpty (changes : PeerChanges) : Bool :=
  !(changes.presharedKeySet || changes.endpointSet ||
    changes.persistentKeepaliveSet || changes.allowedIpsSet)

structure DeviceChanges where
  privateKeySet : Bool
  listenPortSet : Bool
  fwmarkSet : Bool
  peersToAdd : List DeclaredWgPeer
  peersToModify : List (Key × PeerChanges)
  peersToRemove : List Key

namespace DeviceChanges

/-- `DeviceChanges::has_device_level_change`. -/
def hasDeviceLevelChange (changes : DeviceChanges) : Bool :=
  changes.privateKeySet || changes.listenPortSet || changes.fwmarkSet

/-- `DeviceChanges::is_empty`. -/
def isEmpty (changes : DeviceChanges) : Bool :=
  !changes.hasDeviceLevelChange && changes.peersToAdd.isEmpty &&
    changes.peersToModify.isEmpty && changes.peersToRemove.isEmpty

end DeviceChanges

/-- The order of `(addr, cidr)`: IPv4 before IPv6, then the address, then the
prefix. -/
def AllowedIp.sortKey (ip : AllowedIp) : Nat :=
  match ip.addr with
  | .v4 bits => bits.toNat * 256 + ip.cidr.toNat
  | .v6 bits => 2 ^ 40 + bits.toNat * 256 + ip.cidr.toNat

/-- `DeclaredWgPeer::diff_against`. -/
def DeclaredWgPeer.diffAgainst (declared : DeclaredWgPeer) (current : WgPeer) : PeerChanges where
  presharedKeySet := declared.presharedKey.isSome
  endpointSet := declared.endpoint.isSome && declared.endpoint != current.endpoint
  persistentKeepaliveSet :=
    declared.persistentKeepalive.isSome && declared.persistentKeepalive.map (·.wantSecs) !=
        current.persistentKeepalive
  allowedIpsSet :=
    sortByKey AllowedIp.sortKey declared.allowedIps !=
      sortByKey AllowedIp.sortKey current.allowedIps

namespace DeclaredWgDevice

/-- The current peers by their public keys. -/
def currKeys (current : WgDevice) : HashMap Key WgPeer :=
  HashMap.collect (current.peers.map fun peer => (peer.publicKey, peer))

/-- `DeclaredWgDevice::diff_against`. -/
def diffAgainst (declared : DeclaredWgDevice) (current : WgDevice) : DeviceChanges where
  privateKeySet := declared.privateKey.isSome
  listenPortSet := declared.listenPort.isSome && declared.listenPort != current.listenPort
  fwmarkSet := declared.fwmark.isSome && declared.fwmark != current.fwmark
  peersToAdd := declared.peers.filter fun peer => ((currKeys current).lookup peer.publicKey).isNone
  peersToModify :=
    declared.peers.filterMap fun peer => do
      let curr ← (currKeys current).lookup peer.publicKey
      let changes := peer.diffAgainst curr
      if changes.isEmpty then none else some (peer.publicKey, changes)
  peersToRemove :=
    (current.peers.map (·.publicKey)).filter fun key => key ∉ declared.peers.map (·.publicKey)

end DeclaredWgDevice

def WgPeerFlags.RemoveMe : BitVec 32 := 1
def WgPeerFlags.ReplaceAllowedIps : BitVec 32 := 2

/-- What is to be written to a peer. -/
structure WgPeerBuilder where
  publicKey : Key
  presharedKey : Option Key
  endpoint : Option SocketAddr
  persistentKeepalive : Option (BitVec 16)
  allowedIps : List AllowedIp
  flags : BitVec 32

namespace WgPeerBuilder

/-- `WgPeerBuilder::new`. -/
def new (publicKey : Key) : WgPeerBuilder where
  publicKey := publicKey
  presharedKey := none
  endpoint := none
  persistentKeepalive := none
  allowedIps := []
  flags := 0

/-- `WgPeerBuilder::replace_allowed_ips`. -/
def replaceAllowedIps (builder : WgPeerBuilder) : WgPeerBuilder :=
  { builder with flags := builder.flags ||| WgPeerFlags.ReplaceAllowedIps }

/-- `WgPeerBuilder::remove`. -/
def remove (builder : WgPeerBuilder) : WgPeerBuilder :=
  { builder with flags := builder.flags ||| WgPeerFlags.RemoveMe }

end WgPeerBuilder

namespace DeclaredWgPeer

/-- `DeclaredWgPeer::apply_to_builder`. -/
def applyToBuilder (declared : DeclaredWgPeer) (builder : WgPeerBuilder) :
    WgPeerBuilder :=
  WgPeerBuilder.replaceAllowedIps
    { builder with
      presharedKey := declared.presharedKey.or builder.presharedKey
      endpoint := declared.endpoint.or builder.endpoint
      persistentKeepalive :=
        (declared.persistentKeepalive.map (·.wantSecs)).or builder.persistentKeepalive
      allowedIps := builder.allowedIps ++ declared.allowedIps }

/-- `DeclaredWgPeer::apply_changes_to_builder`. -/
def applyChangesToBuilder (declared : DeclaredWgPeer) (builder : WgPeerBuilder)
    (changes : PeerChanges) : WgPeerBuilder :=
  let scalars : WgPeerBuilder :=
    { builder with
      presharedKey :=
        if changes.presharedKeySet then
          declared.presharedKey.or builder.presharedKey
        else
          builder.presharedKey
      endpoint :=
        if changes.endpointSet then declared.endpoint.or builder.endpoint else builder.endpoint
      persistentKeepalive :=
        if changes.persistentKeepaliveSet then
          (declared.persistentKeepalive.map (·.wantSecs)).or builder.persistentKeepalive
        else
          builder.persistentKeepalive }
  if changes.allowedIpsSet then
    WgPeerBuilder.replaceAllowedIps
      { scalars with allowedIps := scalars.allowedIps ++ declared.allowedIps }
  else
    scalars

end DeclaredWgPeer

/-- What is to be written to a device. -/
structure WgDeviceBuilder where
  privateKey : Option Key
  listenPort : Option (BitVec 16)
  fwmark : Option (BitVec 32)
  replacePeers : Bool
  peers : List WgPeerBuilder

/-- `WgDeviceBuilder::new`. -/
def WgDeviceBuilder.new : WgDeviceBuilder where
  privateKey := none
  listenPort := none
  fwmark := none
  replacePeers := false
  peers := []

/-!
## The device as the kernel has it

The kernel's answer to `GET_DEVICE` is one or more messages.  The first carries
the scalars, every message a nest of peers.  A peer whose allowed IPs do not fit
is continued in the next message: the entry there has the peer's key and the
allowed IPs that remain, nothing else.
-/

/-- A time as the kernel reports it; zero is no time. -/
structure KernelTime where
  secs : Nat
  nanos : Nat
  secsFit : secs < 2 ^ 63
  nanosFit : nanos < 1000000000

namespace KernelTime

def zero : KernelTime where
  secs := 0
  nanos := 0
  secsFit := by decide
  nanosFit := by decide

def time (time : KernelTime) : Option SystemTime :=
  if time.secs = 0 ∧ time.nanos = 0 then none else some { secs := time.secs, nanos := time.nanos }

/-- A `timespec` of two 64-bit numbers. -/
def bytes (order : ByteOrder) (time : KernelTime) : List UInt8 :=
  order.toBytes 8 time.secs ++ order.toBytes 8 time.nanos

end KernelTime

/-- A peer in the kernel.  A key of zeros is no preshared key. -/
structure KernelPeer where
  publicKey : Key
  presharedKey : Key
  endpoint : Option SocketAddr
  persistentKeepalive : BitVec 16
  lastHandshake : KernelTime
  rxBytes : BitVec 64
  txBytes : BitVec 64
  allowedIps : List AllowedIp
  protocolVersion : BitVec 32

def KernelPeer.asWgPeer (peer : KernelPeer) : WgPeer where
  publicKey := peer.publicKey
  presharedKey := nonZeroKey peer.presharedKey
  endpoint := peer.endpoint
  persistentKeepalive := some peer.persistentKeepalive
  lastHandshake := peer.lastHandshake.time
  rxBytes := peer.rxBytes
  txBytes := peer.txBytes
  allowedIps := peer.allowedIps
  protocolVersion := some peer.protocolVersion

/-- The room for a name and its terminator. -/
def IFNAMSIZ : Nat := 16

/-- A device in the kernel.  Its name is short and has no NUL, and a key of
zeros is no key; no two peers have one public key. -/
structure KernelDevice where
  ifindex : BitVec 32
  ifname : String
  privateKey : Key
  publicKey : Key
  listenPort : BitVec 16
  fwmark : BitVec 32
  peers : List KernelPeer
  nameEnds : ∀ byte ∈ asBytes ifname, byte ≠ 0
  nameShort : (asBytes ifname).length < IFNAMSIZ
  distinct : (peers.map (·.publicKey)).Nodup

def KernelDevice.asWgDevice (device : KernelDevice) : WgDevice where
  ifindex := some device.ifindex
  ifname := some device.ifname
  privateKey := nonZeroKey device.privateKey
  publicKey := nonZeroKey device.publicKey
  listenPort := some device.listenPort
  fwmark := some device.fwmark
  peers := device.peers.map (·.asWgPeer)

/-- One entry of a peers nest: a peer with the first of its allowed IPs, or
more allowed IPs of a peer that was begun in an earlier message. -/
inductive Entry where
  | first (peer : KernelPeer) (allowedIps : List AllowedIp)
  | continued (publicKey : Key) (allowedIps : List AllowedIp)

def Entry.Continues : Entry → Prop
  | .first _ _ => False
  | .continued _ _ => True

instance (entry : Entry) : Decidable entry.Continues :=
  match entry with
  | .first _ _ => inferInstanceAs (Decidable False)
  | .continued _ _ => inferInstanceAs (Decidable True)

/-- A peer, with the allowed IPs of its first entry and those of every entry
that continues it. -/
structure SplitPeer where
  peer : KernelPeer
  begun : List AllowedIp
  continued : List (List AllowedIp)
  whole : begun ++ continued.flatten = peer.allowedIps

def SplitPeer.entries (split : SplitPeer) : List Entry :=
  .first split.peer split.begun :: split.continued.map (.continued split.peer.publicKey)

section Attributes

open Nftables

/-- A nest for each element; the kernel gives them all the type zero. -/
def nests : List Attrs → Attrs
  | [] => .nil
  | inner :: rest => .nest 0 inner (nests rest)

variable (order : ByteOrder)

def AllowedIp.attrs (ip : AllowedIp) : Attrs :=
  .leaf WgAllowedIpAttr.Family (order.toBytes 2 ip.family)
    (.leaf WgAllowedIpAttr.IpAddr ip.addrBytes (.leaf WgAllowedIpAttr.CidrMask [ip.cidr] .nil))

/-- The nest of a list of allowed IPs, when there are any. -/
def allowedIpsAttrs (ips : List AllowedIp) : Attrs :=
  if ips = [] then .nil else .nest WgPeerAttr.AllowedIps (nests (ips.map (·.attrs order))) .nil

def endpointAttrs (endpoint : Option SocketAddr) (rest : Attrs) : Attrs :=
  match endpoint with
  | some address => .leaf WgPeerAttr.Endpoint (sockaddrToBytes order address) rest
  | none => rest

namespace Entry

def attrs : Entry → Attrs
  | .first peer ips =>
      .leaf WgPeerAttr.PublicKey peer.publicKey.bytes
        (.leaf WgPeerAttr.PresharedKey peer.presharedKey.bytes
          (.leaf WgPeerAttr.LastHandshake (peer.lastHandshake.bytes order)
            (.leaf WgPeerAttr.PersistentKeepalive (order.toBytes 2 peer.persistentKeepalive.toNat)
              (.leaf WgPeerAttr.TxBytes (order.toBytes 8 peer.txBytes.toNat)
                (.leaf WgPeerAttr.RxBytes (order.toBytes 8 peer.rxBytes.toNat)
                  (.leaf WgPeerAttr.ProtocolVersion (order.toBytes 4 peer.protocolVersion.toNat)
                    (endpointAttrs order peer.endpoint (allowedIpsAttrs order ips))))))))
  | .continued publicKey ips =>
      .leaf WgPeerAttr.PublicKey publicKey.bytes (allowedIpsAttrs order ips)

end Entry

/-- The nest of peers that every message ends with. -/
def peersAttrs (entries : List Entry) : Attrs :=
  .nest WgDeviceAttr.Peers (nests (entries.map (·.attrs order))) .nil

/-- The attributes of the first message. -/
def KernelDevice.attrs (device : KernelDevice) (entries : List Entry) :
    Attrs :=
  .leaf WgDeviceAttr.ListenPort (order.toBytes 2 device.listenPort.toNat)
    (.leaf WgDeviceAttr.Fwmark (order.toBytes 4 device.fwmark.toNat)
      (.leaf WgDeviceAttr.Ifindex (order.toBytes 4 device.ifindex.toNat)
        (.leaf WgDeviceAttr.Ifname (asBytes device.ifname ++ [0])
          (.leaf WgDeviceAttr.PrivateKey device.privateKey.bytes
            (.leaf WgDeviceAttr.PublicKey device.publicKey.bytes (peersAttrs order entries))))))

/-- A dump of a device: its peers, split into entries, and the entries spread
over messages.  An entry that continues a peer is the first of its message, and
every attribute fits its length field. -/
structure Dump (device : KernelDevice) where
  splits : List SplitPeer
  start : List Entry
  later : List (List Entry)
  /-- The netlink and the generic netlink header of each message. -/
  headers : Nat → List UInt8
  peers_eq : splits.map (·.peer) = device.peers
  entries_eq : start ++ later.flatten = splits.flatMap (·.entries)
  continuesFirst : ∀ entries ∈ start :: later, ∀ entry ∈ entries.tail, ¬ entry.Continues
  headers_length : ∀ index, (headers index).length = NLMSG_HDRLEN + GENL_HDRLEN
  startFits : (device.attrs order start).Fits order
  laterFit : ∀ entries ∈ later, (peersAttrs order entries).Fits order

variable {order : ByteOrder} {device : KernelDevice}

def Dump.responses (dump : Dump order device) : List (List UInt8) :=
  (dump.headers 0 ++ (device.attrs order dump.start).encode order) ::
    dump.later.mapIdx fun index entries =>
      dump.headers (index + 1) ++ (peersAttrs order entries).encode order

/-- No peer of the dump is continued. -/
def Dump.Whole (dump : Dump order device) : Prop :=
  ∀ split ∈ dump.splits, split.continued = []

/-- No endpoint of the device has a flow label. -/
def KernelDevice.Unlabelled (device : KernelDevice) : Prop :=
  ∀ peer ∈ device.peers, ∀ ip port flowinfo scopeId,
    peer.endpoint = some (.v6 ip port flowinfo scopeId) → flowinfo = 0

end Attributes

end Nlink.Wireguard
