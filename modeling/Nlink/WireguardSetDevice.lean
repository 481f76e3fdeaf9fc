import Nlink.WireguardDump

namespace Nlink.Wireguard

open Foundation Netlink Network Nftables List Attrs

/-!
# Writing to a device

A request is a tree of attributes.  The kernel merges the fields that it carries
into the named peer.  An allowed IP is kept masked to its prefix, once in a
device: the peer that sets it last has it.  A nest that does not fit its length
field is sent with a wrong length, and the kernel rejects it.
-/

section Requests

/-- An attribute that is written when there is a value. -/
def attrSome (attrType : Nat) (value : Option AttrValue) (rest : AttrTree) :
    AttrTree :=
  match value with
  | some value => .attr attrType value rest
  | none => rest

/-- A nest for each element, numbered by a 16-bit index. -/
def nestsFrom (index : Nat) : List AttrTree → AttrTree
  | [] => .nil
  | inner :: rest => .nest (index % 65536) inner (nestsFrom (index + 1) rest)

/-- A nest around the elements of a list, when there are any. -/
def nestSome (attrType : Nat) (inners : List AttrTree) : AttrTree :=
  if inners = [] then .nil else .nest attrType (nestsFrom 0 inners) .nil

def AllowedIp.tree (ip : AllowedIp) : AttrTree :=
  .attr WgAllowedIpAttr.Family (.u16 ip.family)
    (.attr WgAllowedIpAttr.IpAddr (.bytes ip.addrBytes)
      (.attr WgAllowedIpAttr.CidrMask (.u8 ip.cidr.toNat) .nil))

variable (order : ByteOrder)

/-- What `append_peer_attrs` writes inside the nest of a peer. -/
def WgPeerBuilder.tree (peer : WgPeerBuilder) : AttrTree :=
  .attr WgPeerAttr.PublicKey (.bytes peer.publicKey.bytes)
    (attrSome WgPeerAttr.Flags (if peer.flags ≠ 0 then some (.u32 peer.flags.toNat) else none)
      (attrSome WgPeerAttr.PresharedKey (peer.presharedKey.map fun key => .bytes key.bytes)
        (attrSome WgPeerAttr.Endpoint
          (peer.endpoint.map fun endpoint => .bytes (sockaddrToBytes order endpoint))
          (attrSome WgPeerAttr.PersistentKeepalive
            (peer.persistentKeepalive.map fun interval => .u16 interval.toNat)
            (nestSome WgPeerAttr.AllowedIps (peer.allowedIps.map (·.tree)))))))

/-- What `apply_device_config` writes. -/
def WgDeviceBuilder.tree (config : WgDeviceBuilder) (ifname : String) :
    AttrTree :=
  .attr WgDeviceAttr.Ifname (.str ifname)
    (attrSome WgDeviceAttr.Flags (if config.replacePeers then some (.u32 1) else none)
      (attrSome WgDeviceAttr.PrivateKey (config.privateKey.map fun key => .bytes key.bytes)
        (attrSome WgDeviceAttr.ListenPort (config.listenPort.map fun port => .u16 port.toNat)
          (attrSome WgDeviceAttr.Fwmark (config.fwmark.map fun mark => .u32 mark.toNat)
            (nestSome WgDeviceAttr.Peers (config.peers.map (·.tree order)))))))

end Requests

section Kernel

/-- The bits of an address that a prefix keeps. -/
def maskBits (width : Nat) (bits : BitVec width) (cidr : UInt8) : BitVec width :=
  bits &&& BitVec.allOnes width <<< (width - cidr.toNat)

def AllowedIp.masked (ip : AllowedIp) : AllowedIp :=
  match ip.addr with
  | .v4 bits => { addr := .v4 (maskBits 32 bits ip.cidr), cidr := ip.cidr }
  | .v6 bits => { addr := .v6 (maskBits 128 bits ip.cidr), cidr := ip.cidr }

/-- What a request says about a peer. -/
structure PeerRequest where
  publicKey : Option Key
  flags : BitVec 32
  presharedKey : Option Key
  endpoint : Option SocketAddr
  persistentKeepalive : Option (BitVec 16)
  allowedIps : List AllowedIp

/-- What a request says about a device. -/
structure DeviceRequest where
  ifname : Option String
  flags : BitVec 32
  privateKey : Option Key
  listenPort : Option (BitVec 16)
  fwmark : Option (BitVec 32)
  peers : List PeerRequest

variable (order : ByteOrder)

/-- An address of the length that goes with its family. -/
def readSockaddr (data : List UInt8) : Option SocketAddr :=
  let family := order.ofBytes (data.take 2)
  let port := BitVec.ofNat 16 (ByteOrder.big.ofBytes ((data.drop 2).take 2))
  if family = AF_INET ∧ data.length = 16 then
    some (.v4 (BitVec.ofNat 32 (ByteOrder.big.ofBytes ((data.drop 4).take 4))) port)
  else if family = AF_INET6 ∧ data.length = 28 then
    some
      (.v6 (BitVec.ofNat 128 (ByteOrder.big.ofBytes ((data.drop 8).take 16))) port
        (BitVec.ofNat 32 (order.ofBytes ((data.drop 4).take 4)))
        (BitVec.ofNat 32 (order.ofBytes ((data.drop 24).take 4))))
  else
    none

def peerRequestAttr (request : PeerRequest) (attr : Nat × List UInt8) : Except Error PeerRequest :=
  if attr.1 = WgPeerAttr.PublicKey then
    .ok { request with publicKey := takeKey attr.2 }
  else if attr.1 = WgPeerAttr.PresharedKey then
    .ok { request with presharedKey := takeKey attr.2 }
  else if attr.1 = WgPeerAttr.Flags then do
    let flags ← getU32Ne order attr.2
    return { request with flags := flags }
  else if attr.1 = WgPeerAttr.Endpoint then
    .ok { request with endpoint := readSockaddr order attr.2 }
  else if attr.1 = WgPeerAttr.PersistentKeepalive then do
    let interval ← getU16Ne order attr.2
    return { request with persistentKeepalive := some interval }
  else if attr.1 = WgPeerAttr.AllowedIps then do
    let allowedIps ← parseAllowedIpsAttr order attr.2 request.allowedIps
    return { request with allowedIps := allowedIps }
  else
    .ok request

def readPeerRequest (data : List UInt8) : Except Error PeerRequest :=
  (attrIter order data).foldlM (peerRequestAttr order)
    { publicKey := none
      flags := 0
      presharedKey := none
      endpoint := none
      persistentKeepalive := none
      allowedIps := [] }

def readPeerRequests (data : List UInt8) (peers : List PeerRequest) :
    Except Error (List PeerRequest) :=
  (attrIter order data).foldlM
    (fun peers attr => do
      let peer ← readPeerRequest order attr.2
      return peers ++ [peer])
    peers

def deviceRequestAttr (request : DeviceRequest) (attr : Nat × List UInt8) :
    Except Error DeviceRequest :=
  if attr.1 = WgDeviceAttr.Ifname then do
    let ifname ← getString attr.2
    return { request with ifname := some ifname }
  else if attr.1 = WgDeviceAttr.Flags then do
    let flags ← getU32Ne order attr.2
    return { request with flags := flags }
  else if attr.1 = WgDeviceAttr.PrivateKey then
    .ok { request with privateKey := takeKey attr.2 }
  else if attr.1 = WgDeviceAttr.ListenPort then do
    let port ← getU16Ne order attr.2
    return { request with listenPort := some port }
  else if attr.1 = WgDeviceAttr.Fwmark then do
    let mark ← getU32Ne order attr.2
    return { request with fwmark := some mark }
  else if attr.1 = WgDeviceAttr.Peers then do
    let peers ← readPeerRequests order attr.2 request.peers
    return { request with peers := peers }
  else
    .ok request

/-- A request, from the attributes of its outermost level. -/
def readDeviceRequest (attrs : List (Nat × List UInt8)) : Except Error DeviceRequest :=
  attrs.foldlM (deviceRequestAttr order)
    { ifname := none
      flags := 0
      privateKey := none
      listenPort := none
      fwmark := none
      peers := [] }

namespace KernelPeer

/-- A peer that is only named. -/
def new (publicKey : Key) : KernelPeer where
  publicKey := publicKey
  presharedKey := Key.zero
  endpoint := none
  persistentKeepalive := 0
  lastHandshake := KernelTime.zero
  rxBytes := 0
  txBytes := 0
  allowedIps := []
  protocolVersion := 1

/-- An allowed IP is masked and becomes the last of the list. -/
def insertIp (ips : List AllowedIp) (ip : AllowedIp) : List AllowedIp :=
  ips.filter (· ≠ ip.masked) ++ [ip.masked]

/-- The peer after a request about it. -/
def merge (peer : KernelPeer) (request : PeerRequest) : KernelPeer :=
  { peer with
    presharedKey := request.presharedKey.getD peer.presharedKey
    endpoint := request.endpoint.or peer.endpoint
    persistentKeepalive := request.persistentKeepalive.getD peer.persistentKeepalive
    allowedIps :=
      request.allowedIps.foldl insertIp
        (if request.flags &&& WgPeerFlags.ReplaceAllowedIps = 0 then
          peer.allowedIps
        else
          []) }

/-- The peer after another peer has set allowed IPs. -/
def yield (peer : KernelPeer) (ips : List AllowedIp) : KernelPeer :=
  { peer with allowedIps := peer.allowedIps.filter (· ∉ ips.map (·.masked)) }

end KernelPeer

namespace KernelDevice

/-- The peers with a given one among them. -/
def withPeer (peers : List KernelPeer) (key : Key) : List KernelPeer :=
  if key ∈ peers.map (·.publicKey) then peers else peers ++ [KernelPeer.new key]

theorem distinct_withPeer {peers : List KernelPeer} (distinct : (peers.map (·.publicKey)).Nodup)
    (key : Key) : ((withPeer peers key).map (·.publicKey)).Nodup := by
  rw [withPeer]
  split
  · exact distinct
  · rename_i new
    rw [map_append]
    exact distinct.append (nodup_singleton _) (disjoint_singleton.mpr new)

def requested (key : Key) (request : PeerRequest) (peer : KernelPeer) :
    KernelPeer :=
  if peer.publicKey = key then peer.merge request else peer.yield request.allowedIps

@[simp]
theorem requested_publicKey (key : Key) (request : PeerRequest) (peer : KernelPeer) :
    (requested key request peer).publicKey = peer.publicKey := by
  rw [requested]
  split <;> rfl

/-- The device after a request about one of its peers. -/
def setPeer (device : KernelDevice) (key : Key) (request : PeerRequest) :
    KernelDevice :=
  if request.flags &&& WgPeerFlags.RemoveMe = 0 then
    { device with
      peers := (withPeer device.peers key).map (requested key request)
      distinct := by
        have same : ((withPeer device.peers key).map (requested key request)).map (·.publicKey) =
              (withPeer device.peers key).map (·.publicKey) := by
          simp [Function.comp_def]
        rw [same]
        exact distinct_withPeer device.distinct key }
  else
    { device with
      peers := device.peers.filter (·.publicKey ≠ key)
      distinct := device.distinct.sublist (filter_sublist.map _) }

/-- The device after a request about a peer that must be named. -/
def setPeerRequest (device : KernelDevice) (request : PeerRequest) : Except Error KernelDevice :=
  match request.publicKey with
  | some key => .ok (device.setPeer key request)
  | none => .error (.kernel EINVAL)

/-- The device after the scalars of a request. -/
def setScalars (device : KernelDevice) (request : DeviceRequest) :
    KernelDevice :=
  { device with
    privateKey := request.privateKey.getD device.privateKey
    listenPort := request.listenPort.getD device.listenPort
    fwmark := request.fwmark.getD device.fwmark
    peers := if request.flags &&& 1 = 0 then device.peers else []
    distinct := by
      split
      · exact device.distinct
      · exact nodup_nil }

def setDevice (device : KernelDevice) (request : DeviceRequest) : Except Error KernelDevice :=
  request.peers.foldlM setPeerRequest (device.setScalars request)

end KernelDevice

/-- How the kernel dumps devices. -/
abbrev Dumps (order : ByteOrder) :=
  (device : KernelDevice) → Dump order device

/-- The devices of a namespace by their names. -/
structure Kernel where
  device : String → Option KernelDevice
  named : ∀ name found, device name = some found → found.ifname = name

namespace Kernel

/-- The kernel with one device replaced. -/
def update (kernel : Kernel) (found : KernelDevice) : Kernel where
  device := Function.update kernel.device found.ifname (some found)
  named name other lookup := by
    by_cases same : name = found.ifname
    · subst same
      rw [Function.update_self, Option.some.injEq] at lookup
      rw [lookup]
    · rw [Function.update_of_ne same] at lookup
      exact kernel.named name other lookup

/-- `SET_DEVICE`. -/
def setDevice (kernel : Kernel) (attrs : Attrs) : Except Error Kernel :=
  if attrs.Fits order then do
    let request ← readDeviceRequest order (attrs.level order)
    match request.ifname.bind kernel.device with
    | some device => do
        let device ← device.setDevice request
        return kernel.update device
    | none => .error (.kernel ENODEV)
  else
    .error (.kernel EINVAL)

/-- `GET_DEVICE`, as `get_device_by_name` reads the answer. -/
def getDevice {order : ByteOrder} (dumps : Dumps order) (kernel : Kernel) (ifname : String) :
    Except Error WgDevice :=
  match kernel.device ifname with
  | some device => getDeviceByName order ifname (dumps device).responses
  | none => .error (.interfaceNotFound ifname)

end Kernel

end Kernel

/-!
## What the kernel reads from a request

A request that fits is read as what its builder holds.
-/

def WgPeerBuilder.request (peer : WgPeerBuilder) : PeerRequest where
  publicKey := some peer.publicKey
  flags := peer.flags
  presharedKey := peer.presharedKey
  endpoint := peer.endpoint
  persistentKeepalive := peer.persistentKeepalive
  allowedIps := peer.allowedIps

def WgDeviceBuilder.request (config : WgDeviceBuilder) (ifname : String) : DeviceRequest where
  ifname := some ifname
  flags := if config.replacePeers then 1 else 0
  privateKey := config.privateKey
  listenPort := config.listenPort
  fwmark := config.fwmark
  peers := config.peers.map (·.request)

section Trees

variable (order : ByteOrder)

theorem fits_of_attrSome {attrType : Nat} {value : Option AttrValue} {rest : AttrTree}
    (fits : ((attrSome attrType value rest).attrs order).Fits order) :
    (rest.attrs order).Fits order := by
  cases value with
  | none => exact fits
  | some value => exact fits.2.2

theorem fits_attrSome {attrType : Nat} {value : Option AttrValue} {rest : AttrTree}
    (unflagged : attrType < NLA_F_NET_BYTEORDER)
    (short : ∀ given ∈ value, NLA_HDRLEN + (given.payload order).length ≤ 65535)
    (fits : (rest.attrs order).Fits order) :
    ((attrSome attrType value rest).attrs order).Fits order := by
  cases value with
  | none => exact fits
  | some given => exact ⟨unflagged, short given rfl, fits⟩

theorem foldlM_attrSome {σ α : Type} {step : σ → Nat × List UInt8 → Except Error σ}
    (state : Option α → σ) (attrType : Nat) (payload : α → AttrValue) (rest : AttrTree)
    (read : ∀ value, step (state none) (attrType, (payload value).payload order) =
        .ok (state (some value)))
    (value : Option α) :
    (((attrSome attrType (value.map payload) rest).attrs order).level
        order).foldlM step (state none) =
      ((rest.attrs order).level order).foldlM step (state value) := by
  cases value with
  | none => rfl
  | some value =>
      rw [Option.map_some, attrSome, AttrTree.attrs, level, foldlM_cons, read value]
      rfl

theorem foldlM_nestsFrom {α β : Type} {step : List β → Nat × List UInt8 → Except Error (List β)}
    {tree : α → AttrTree} {image : α → β}
    (each : ∀ item attrType found, ((tree item).attrs order).Fits order →
        step found (attrType, ((tree item).attrs order).encode order) = .ok (found ++ [image item]))
    {items : List α} {index : Nat}
    (fits : ((nestsFrom index (items.map tree)).attrs order).Fits order) (found : List β) :
    (((nestsFrom index (items.map tree)).attrs order).level order).foldlM step found =
      .ok (found ++ items.map image) := by
  induction items generalizing index found with
  | nil => exact congrArg Except.ok (List.append_nil found).symm
  | cons item rest ih =>
      obtain ⟨_, _, itemFits, restFits⟩ := fits
      rw [map_cons, nestsFrom, AttrTree.attrs, level, foldlM_cons, each item _ _ itemFits]
      refine (ih restFits _).trans ?_
      rw [List.append_assoc, singleton_append, map_cons]

end Trees

section Peers

variable (order : ByteOrder)

theorem attrs_allowedIpTree (ip : AllowedIp) : ip.tree.attrs order = ip.attrs order := by
  simp [AllowedIp.tree, AllowedIp.attrs, AttrTree.attrs, AttrValue.payload]

theorem readSockaddr_bytes (address : SocketAddr) :
    readSockaddr order (sockaddrToBytes order address) = some address := by
  have four := order.ofBytes_toBytes (show AF_INET < 256 ^ 2 by decide)
  have six := order.ofBytes_toBytes (show AF_INET6 < 256 ^ 2 by decide)
  have families : AF_INET6 ≠ AF_INET := by decide
  cases address with
  | v4 ip port =>
      have ipRead := ofNat_ofBytes_toBytes .big 4 ip
      have portRead := ofNat_ofBytes_toBytes .big 2 port
      simp [readSockaddr, sockaddrToBytes, drop_append, drop_of_length_le, four, ipRead, portRead]
  | v6 ip port flowinfo scopeId =>
      have ipRead := ofNat_ofBytes_toBytes .big 16 ip
      have portRead := ofNat_ofBytes_toBytes .big 2 port
      have flowRead := ofNat_ofBytes_toBytes order 4 flowinfo
      have scopeRead := ofNat_ofBytes_toBytes order 4 scopeId
      simp [readSockaddr, sockaddrToBytes, drop_append, take_of_length_le,
        drop_of_length_le, six, families, ipRead, portRead, flowRead, scopeRead]

theorem foldlM_allowedIps {ips : List AllowedIp}
    (fits : ((nestSome WgPeerAttr.AllowedIps (ips.map (·.tree))).attrs order).Fits order)
    {request : PeerRequest} (unread : request.allowedIps = []) :
    (((nestSome WgPeerAttr.AllowedIps (ips.map (·.tree))).attrs order).level
        order).foldlM (peerRequestAttr order) request =
      .ok { request with allowedIps := ips } := by
  rw [nestSome] at fits ⊢
  split at fits
  · rename_i none
    rw [if_pos none, map_eq_nil_iff.mp none, ← unread]
    rfl
  · rename_i some
    rw [if_neg some]
    obtain ⟨_, _, ipsFit, _⟩ := fits
    have read : parseAllowedIpsAttr order
            (((nestsFrom 0 (ips.map (·.tree))).attrs order).encode order)
            request.allowedIps =
          .ok ips := by
      have each : ∀ (ip : AllowedIp) (attrType : Nat) found, (ip.tree.attrs order).Fits order →
              (do
                let ip ← parseAllowedIpAttrs order
                  (attrType, (ip.tree.attrs order).encode order).2
                return found ++ ip.toList) = .ok (found ++ [id ip]) := by
        intro ip attrType found ipFits
        rw [attrs_allowedIpTree] at ipFits ⊢
        exact parseAllowedIps_step order ipFits attrType found
      rw [parseAllowedIpsAttr, attrIter_encode order ipsFit, unread]
      refine (foldlM_nestsFrom order each ipsFit []).trans ?_
      rw [map_id, List.nil_append]
    rw [AttrTree.attrs, level, foldlM_cons]
    change (parseAllowedIpsAttr order _ _ >>= _) >>= _ = _
    rw [read]
    rfl

/-- The request of which only the key has been read. -/
def PeerRequest.named (publicKey : Key) : PeerRequest where
  publicKey := some publicKey
  flags := 0
  presharedKey := none
  endpoint := none
  persistentKeepalive := none
  allowedIps := []

theorem getD_flags (flags : BitVec 32) :
    (if flags ≠ 0 then some flags else none).getD 0 = flags := by
  by_cases zero : flags = 0
  · rw [zero]
    rfl
  · rw [if_pos zero]
    rfl

theorem readPeerRequest_tree {peer : WgPeerBuilder}
    (fits : ((peer.tree order).attrs order).Fits order) :
    readPeerRequest order (((peer.tree order).attrs order).encode order) = .ok peer.request := by
  have ipsFit :=
    fits_of_attrSome order (fits_of_attrSome order (fits_of_attrSome order
      (fits_of_attrSome order fits.2.2)))
  have flagsWritten :
      (if peer.flags ≠ 0 then some (AttrValue.u32 peer.flags.toNat)
        else none) =
        (if peer.flags ≠ 0 then some peer.flags else none).map
          fun flags => AttrValue.u32 flags.toNat := by
    split <;> rfl
  rw [readPeerRequest, attrIter_encode order fits, WgPeerBuilder.tree,
    AttrTree.attrs, level, foldlM_cons, flagsWritten]
  have keyRead : peerRequestAttr order
          { publicKey := none
            flags := 0
            presharedKey := none
            endpoint := none
            persistentKeepalive := none
            allowedIps := [] }
          (WgPeerAttr.PublicKey, peer.publicKey.bytes) =
        .ok (.named peer.publicKey) := by
    simp [peerRequestAttr, PeerRequest.named]
  rw [AttrValue.payload, keyRead]
  refine (foldlM_attrSome order
    (fun flags => { PeerRequest.named peer.publicKey with flags := flags.getD 0 })
    _ _ _ (fun flags => ?_) _).trans ?_
  · change (getU32Ne order _ >>= _) = _
    rw [AttrValue.payload, getU32Ne_toBytes]
    rfl
  rw [getD_flags]
  refine (foldlM_attrSome order (fun key => { PeerRequest.named peer.publicKey with
      flags := peer.flags
      presharedKey := key })
    _ _ _ (fun key => ?_) _).trans ?_
  · simp [peerRequestAttr, AttrValue.payload, WgPeerAttr.PresharedKey,
      WgPeerAttr.PublicKey, takeKey_bytes]
  refine (foldlM_attrSome order (fun endpoint => { PeerRequest.named peer.publicKey with
      flags := peer.flags
      presharedKey := peer.presharedKey
      endpoint := endpoint })
    _ _ _ (fun endpoint => ?_) _).trans ?_
  · simp [peerRequestAttr, AttrValue.payload, WgPeerAttr.Endpoint, WgPeerAttr.PresharedKey,
      WgPeerAttr.PublicKey, WgPeerAttr.Flags, readSockaddr_bytes]
  refine (foldlM_attrSome order (fun interval => { PeerRequest.named peer.publicKey with
      flags := peer.flags
      presharedKey := peer.presharedKey
      endpoint := peer.endpoint
      persistentKeepalive := interval })
    _ _ _ (fun interval => ?_) _).trans ?_
  · change (getU16Ne order _ >>= _) = _
    rw [AttrValue.payload, getU16Ne_toBytes]
    rfl
  exact foldlM_allowedIps order ipsFit rfl

theorem readPeerRequests_step (peer : WgPeerBuilder) (attrType : Nat) (found : List PeerRequest)
    (fits : ((peer.tree order).attrs order).Fits order) :
    (do
      let peer ← readPeerRequest order
        (attrType, ((peer.tree order).attrs order).encode order).2
      return found ++ [peer]) = .ok (found ++ [peer.request]) := by
  rw [readPeerRequest_tree order fits]
  rfl

end Peers

section Devices

variable (order : ByteOrder)

theorem foldlM_peers {peers : List WgPeerBuilder}
    (fits : ((nestSome WgDeviceAttr.Peers (peers.map (·.tree order))).attrs order).Fits order)
    {request : DeviceRequest} (unread : request.peers = []) :
    (((nestSome WgDeviceAttr.Peers (peers.map (·.tree order))).attrs
        order).level order).foldlM (deviceRequestAttr order) request =
      .ok { request with peers := peers.map (·.request) } := by
  rw [nestSome] at fits ⊢
  split at fits
  · rename_i none
    rw [if_pos none, map_eq_nil_iff.mp none, map_nil, ← unread]
    rfl
  · rename_i some
    rw [if_neg some]
    obtain ⟨_, _, peersFit, _⟩ := fits
    have read : readPeerRequests order
            (((nestsFrom 0 (peers.map (·.tree order))).attrs order).encode order)
            request.peers =
          .ok (peers.map (·.request)) := by
      rw [readPeerRequests, attrIter_encode order peersFit, unread]
      exact foldlM_nestsFrom order (readPeerRequests_step order) peersFit []
    rw [AttrTree.attrs, level, foldlM_cons]
    change (readPeerRequests order _ _ >>= _) >>= _ = _
    rw [read]
    rfl

/-- The request of which only the name has been read. -/
def DeviceRequest.named (ifname : String) : DeviceRequest where
  ifname := some ifname
  flags := 0
  privateKey := none
  listenPort := none
  fwmark := none
  peers := []

theorem readDeviceRequest_tree {config : WgDeviceBuilder} {ifname : String}
    (ends : ∀ byte ∈ asBytes ifname, byte ≠ 0)
    (fits : ((config.tree order ifname).attrs order).Fits order) :
    readDeviceRequest order (((config.tree order ifname).attrs order).level order) =
      .ok (config.request ifname) := by
  have peersFit :=
    fits_of_attrSome order (fits_of_attrSome order (fits_of_attrSome order
      (fits_of_attrSome order fits.2.2)))
  have flagsWritten : (if config.replacePeers then some (AttrValue.u32 1) else none) =
        (if config.replacePeers then some (1 : BitVec 32) else none).map
          fun flags => AttrValue.u32 flags.toNat := by
    split <;> rfl
  have flagsRead : (if config.replacePeers then some (1 : BitVec 32) else none).getD 0 =
        if config.replacePeers then 1 else 0 := by
    split <;> rfl
  rw [readDeviceRequest, WgDeviceBuilder.tree, AttrTree.attrs, level,
    foldlM_cons, flagsWritten]
  have nameRead : deviceRequestAttr order
          { ifname := none
            flags := 0
            privateKey := none
            listenPort := none
            fwmark := none
            peers := [] }
          (WgDeviceAttr.Ifname, asBytes ifname ++ [0]) =
        .ok (.named ifname) := by
    change (getString _ >>= _) = _
    rw [getString_asBytes ends]
    rfl
  rw [AttrValue.payload, nameRead]
  refine (foldlM_attrSome order
    (fun flags => { DeviceRequest.named ifname with flags := flags.getD 0 })
    _ _ _ (fun flags => ?_) _).trans ?_
  · change (getU32Ne order _ >>= _) = _
    rw [AttrValue.payload, getU32Ne_toBytes]
    rfl
  rw [flagsRead]
  refine (foldlM_attrSome order (fun key => { DeviceRequest.named ifname with
      flags := if config.replacePeers then 1 else 0
      privateKey := key })
    _ _ _ (fun key => ?_) _).trans ?_
  · simp [deviceRequestAttr, AttrValue.payload, WgDeviceAttr.PrivateKey,
      WgDeviceAttr.Ifname, WgDeviceAttr.Flags, takeKey_bytes]
  refine (foldlM_attrSome order (fun port => { DeviceRequest.named ifname with
      flags := if config.replacePeers then 1 else 0
      privateKey := config.privateKey
      listenPort := port })
    _ _ _ (fun port => ?_) _).trans ?_
  · change (getU16Ne order _ >>= _) = _
    rw [AttrValue.payload, getU16Ne_toBytes]
    rfl
  refine (foldlM_attrSome order (fun mark => { DeviceRequest.named ifname with
      flags := if config.replacePeers then 1 else 0
      privateKey := config.privateKey
      listenPort := config.listenPort
      fwmark := mark })
    _ _ _ (fun mark => ?_) _).trans ?_
  · change (getU32Ne order _ >>= _) = _
    rw [AttrValue.payload, getU32Ne_toBytes]
    rfl
  exact foldlM_peers order peersFit rfl

end Devices

/-- The device after everything that a builder holds. -/
def KernelDevice.write (device : KernelDevice) (config : WgDeviceBuilder) :
    KernelDevice :=
  config.peers.foldl (fun device peer => device.setPeer peer.publicKey peer.request)
    (device.setScalars (config.request device.ifname))

theorem foldlM_setPeerRequest (peers : List WgPeerBuilder) (device : KernelDevice) :
    (peers.map (·.request)).foldlM KernelDevice.setPeerRequest device = .ok
        (peers.foldl (fun device peer => device.setPeer peer.publicKey peer.request) device) := by
  induction peers generalizing device with
  | nil => rfl
  | cons peer rest ih => exact ih _

theorem Kernel.setDevice_tree (order : ByteOrder) {kernel : Kernel} {ifname : String}
    {device : KernelDevice} (found : kernel.device ifname = some device)
    (config : WgDeviceBuilder) :
    kernel.setDevice order ((config.tree order ifname).attrs order) =
      if ((config.tree order ifname).attrs order).Fits order then
        .ok (kernel.update (device.write config))
      else
        .error (.kernel EINVAL) := by
  have name := kernel.named ifname device found
  have ends := device.nameEnds
  rw [name] at ends
  rw [Kernel.setDevice]
  split
  · rename_i fits
    have device_eq : device.setDevice (config.request ifname) = .ok (device.write config) := by
      rw [KernelDevice.setDevice, KernelDevice.write, name]
      exact foldlM_setPeerRequest _ _
    rw [readDeviceRequest_tree order ends fits]
    have requested : (config.request ifname).ifname = some ifname := rfl
    simp only [bind, Except.bind, requested, Option.bind_some, found, device_eq]
    rfl
  · rfl

end Nlink.Wireguard
