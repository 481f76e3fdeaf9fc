import Mathlib.Data.List.Forall2
import Nlink.WireguardConfig

namespace Nlink.Wireguard

open Foundation Netlink Network Nftables List Attrs

/-!
# Reading a device from its dump

Every entry of a peers nest is read as a peer of its own, so a peer that is
continued in a later message is read as several.  A flow label of an endpoint is
not read.  Any other device is read as it is.
-/

section Values

variable (order : ByteOrder)

theorem toNat_lt_bytes {width : Nat} (value : BitVec (8 * width)) : value.toNat < 256 ^ width := by
  have bound := value.isLt
  rw [Nat.pow_mul] at bound
  exact bound

theorem ofNat_ofBytes_toBytes (width : Nat) (value : BitVec (8 * width)) :
    BitVec.ofNat (8 * width) (order.ofBytes (order.toBytes width value.toNat)) =
      value := by
  rw [order.ofBytes_toBytes (toNat_lt_bytes value), BitVec.ofNat_toNat, BitVec.setWidth_eq]

theorem getNe_toBytes (width : Nat) (type : String) (value : BitVec (8 * width)) :
    getNe order width type (order.toBytes width value.toNat) = .ok value := by
  have length := order.toBytes_length width value.toNat
  rw [getNe, if_neg (by omega), take_of_length_le (by omega), ofNat_ofBytes_toBytes]

@[simp]
theorem getU16Ne_toBytes (value : BitVec 16) :
    getU16Ne order (order.toBytes 2 value.toNat) = .ok value :=
  getNe_toBytes order 2 "u16" value

@[simp]
theorem getU32Ne_toBytes (value : BitVec 32) :
    getU32Ne order (order.toBytes 4 value.toNat) = .ok value :=
  getNe_toBytes order 4 "u32" value

@[simp]
theorem getU64Ne_toBytes (value : BitVec 64) :
    getU64Ne order (order.toBytes 8 value.toNat) = .ok value :=
  getNe_toBytes order 8 "u64" value

theorem family_mod (ip : AllowedIp) : ip.family % 65536 = ip.family := by
  rcases ip with ⟨_ | _, _⟩ <;> rfl

theorem getU16Ne_family (ip : AllowedIp) : getU16Ne order (order.toBytes 2 ip.family) =
      .ok (BitVec.ofNat 16 ip.family) := by
  have read := getU16Ne_toBytes order (BitVec.ofNat 16 ip.family)
  rwa [BitVec.toNat_ofNat, family_mod] at read

@[simp]
theorem takeKey_bytes (key : Key) : takeKey key.bytes = some key := by
  have length := key.length_eq
  rw [takeKey, dif_pos (by omega)]
  cases key with
  | mk bytes _ =>
    simp only [Option.some.injEq, Key.mk.injEq]
    exact take_of_length_le (by omega)

/-- A terminated name is read back. -/
theorem getString_asBytes {name : String} (ends : ∀ byte ∈ asBytes name, byte ≠ 0) :
    getString (asBytes name ++ [0]) = .ok name := by
  rw [getString, takeWhile_terminated ends, fromUtf8_asBytes]

theorem toInt_ofBytes_toBytes {value : Nat} (small : value < 2 ^ 63) :
    (BitVec.ofNat 64 (order.ofBytes (order.toBytes 8 value))).toInt =
      value := by
  have fits : value < 256 ^ 8 := by omega
  have unsigned : (BitVec.ofNat 64 value).toNat = value := by
    rw [BitVec.toNat_ofNat]
    exact Nat.mod_eq_of_lt (by omega)
  rw [order.ofBytes_toBytes fits, BitVec.toInt_eq_toNat_of_lt (by omega), unsigned]

theorem parseTimespec_bytes (time : KernelTime) :
    parseTimespec order (time.bytes order) = time.time := by
  have secsFit := time.secsFit
  have nanosFit := time.nanosFit
  have length : (time.bytes order).length = 16 := by simp [KernelTime.bytes]
  have front : (time.bytes order).take 8 = order.toBytes 8 time.secs :=
    take_left' (order.toBytes_length 8 _)
  have back : ((time.bytes order).drop 8).take 8 = order.toBytes 8 time.nanos := by
    rw [KernelTime.bytes, drop_left' (order.toBytes_length 8 _)]
    exact take_of_length_le (by simp)
  rw [parseTimespec, if_neg (by omega), front, back, toInt_ofBytes_toBytes order secsFit,
    toInt_ofBytes_toBytes order (by omega), KernelTime.time]
  simp only [Int.natCast_eq_zero, Int.toNat_natCast]
  split
  · rfl
  · rw [if_neg (by omega), if_neg (by omega)]

/-- An address without its flow label. -/
def SocketAddr.unlabelled : SocketAddr → SocketAddr
  | .v4 ip port => .v4 ip port
  | .v6 ip port _ scopeId => .v6 ip port 0 scopeId

theorem parseSockaddr_bytes (address : SocketAddr) :
    parseSockaddr order (sockaddrToBytes order address) = some address.unlabelled := by
  have four := order.ofBytes_toBytes (show AF_INET < 256 ^ 2 by decide)
  have six := order.ofBytes_toBytes (show AF_INET6 < 256 ^ 2 by decide)
  have families : AF_INET6 ≠ AF_INET := by decide
  cases address with
  | v4 ip port =>
      have ipRead := ofNat_ofBytes_toBytes .big 4 ip
      have portRead := ofNat_ofBytes_toBytes .big 2 port
      simp [parseSockaddr, sockaddrToBytes, SocketAddr.unlabelled,
        drop_append, drop_of_length_le, four, ipRead, portRead]
  | v6 ip port flowinfo scopeId =>
      have ipRead := ofNat_ofBytes_toBytes .big 16 ip
      have portRead := ofNat_ofBytes_toBytes .big 2 port
      have scopeRead := ofNat_ofBytes_toBytes order 4 scopeId
      simp [parseSockaddr, sockaddrToBytes, SocketAddr.unlabelled,
        drop_append, take_of_length_le, drop_of_length_le, six, families, ipRead, portRead, scopeRead]

end Values

section Entries

variable (order : ByteOrder)

theorem level_nests (inners : List Attrs) : (nests inners).level order =
      inners.map fun inner => (0, inner.encode order) := by
  induction inners with
  | nil => rfl
  | cons inner rest ih => rw [nests, level, ih, map_cons]

theorem foldlM_items {α : Type} {step : List α → Nat × List UInt8 → Except Error (List α)}
    {attrs : List (Nat × List UInt8)} {items : List α}
    (each : List.Forall₂ (fun attr item => ∀ found, step found attr = .ok (found ++ [item]))
      attrs items)
    (found : List α) : attrs.foldlM step found = .ok (found ++ items) := by
  induction each generalizing found with
  | nil =>
      rw [List.append_nil]
      rfl
  | cons read _ ih =>
      rw [foldlM_cons, read found]
      refine (ih _).trans ?_
      rw [List.append_assoc, singleton_append]

theorem fits_of_mem_nests {inners : List Attrs} (fits : (nests inners).Fits order) {inner : Attrs}
    (mem : inner ∈ inners) : inner.Fits order := by
  induction inners with
  | nil => cases mem
  | cons first rest ih =>
      obtain ⟨_, _, firstFits, restFits⟩ := fits
      rcases mem_cons.mp mem with rfl | mem
      · exact firstFits
      · exact ih restFits mem

theorem assemble_parts (ip : AllowedIp) : AllowedIpParts.assemble
        { family := some ip.family
          addrBytes := some ip.addrBytes
          cidr := some ip.cidr } = some ip := by
  rcases ip with ⟨bits | bits, cidr⟩
  · have bitsRead := ofNat_ofBytes_toBytes .big 4 bits
    simp [AllowedIpParts.assemble, AllowedIp.family, AllowedIp.addrBytes,
      take_of_length_le, AF_INET, bitsRead]
  · have bitsRead := ofNat_ofBytes_toBytes .big 16 bits
    simp [AllowedIpParts.assemble, AllowedIp.family, AllowedIp.addrBytes,
      take_of_length_le, AF_INET, AF_INET6, bitsRead]

theorem parseAllowedIpAttrs_encode {ip : AllowedIp} (fits : (ip.attrs order).Fits order) :
    parseAllowedIpAttrs order ((ip.attrs order).encode order) = .ok (some ip) := by
  rw [parseAllowedIpAttrs, attrIter_encode order fits]
  simp [AllowedIp.attrs, level, allowedIpAttr, WgAllowedIpAttr.Family, WgAllowedIpAttr.IpAddr,
    WgAllowedIpAttr.CidrMask, getU16Ne_family, getU8, bind, Except.bind, pure, Except.pure,
    family_mod, assemble_parts]

theorem parseAllowedIps_step {ip : AllowedIp} (fits : (ip.attrs order).Fits order) (attrType : Nat)
    (found : List AllowedIp) :
    (do
      let ip ← parseAllowedIpAttrs order
        (attrType, (ip.attrs order).encode order).2
      return found ++ ip.toList) = .ok (found ++ [ip]) := by
  rw [parseAllowedIpAttrs_encode order fits]
  rfl

theorem parseAllowedIpsAttr_nests {ips : List AllowedIp}
    (fits : (nests (ips.map (·.attrs order))).Fits order) (found : List AllowedIp) :
    parseAllowedIpsAttr order ((nests (ips.map (·.attrs order))).encode order) found =
      .ok (found ++ ips) := by
  rw [parseAllowedIpsAttr, attrIter_encode order fits, level_nests, map_map]
  refine foldlM_items ?_ found
  rw [forall₂_map_left_iff, forall₂_same]
  intro ip mem
  exact parseAllowedIps_step order (fits_of_mem_nests order fits (mem_map_of_mem mem)) 0

theorem foldlM_allowedIpsAttrs {ips : List AllowedIp}
    (fits : (allowedIpsAttrs order ips).Fits order) (peer : WgPeer) :
    ((allowedIpsAttrs order ips).level order).foldlM (peerAttr order) peer =
      .ok { peer with allowedIps := peer.allowedIps ++ ips } := by
  rw [allowedIpsAttrs] at fits ⊢
  split at fits
  · rename_i none
    simp [none, level, pure, Except.pure]
  · rename_i some
    rw [if_neg some]
    simp [level, peerAttr, WgPeerAttr.AllowedIps, WgPeerAttr.PublicKey,
      WgPeerAttr.PresharedKey, WgPeerAttr.Endpoint, WgPeerAttr.PersistentKeepalive,
      WgPeerAttr.LastHandshake, WgPeerAttr.RxBytes, WgPeerAttr.TxBytes, parseAllowedIpsAttr_nests
      order fits.2.2.1, bind, Except.bind, pure, Except.pure]

theorem foldlM_endpointAttrs (endpoint : Option SocketAddr) (rest : Attrs) (peer : WgPeer) :
    ((endpointAttrs order endpoint rest).level order).foldlM (peerAttr order) peer =
      (rest.level order).foldlM (peerAttr order)
        { peer with
          endpoint := (endpoint.map (·.unlabelled)).or peer.endpoint } := by
  cases endpoint with
  | none => rfl
  | some address =>
      simp [endpointAttrs, level, peerAttr, WgPeerAttr.PublicKey, WgPeerAttr.PresharedKey,
        WgPeerAttr.Endpoint, parseSockaddr_bytes, bind, Except.bind]

theorem fits_of_endpointAttrs {endpoint : Option SocketAddr} {rest : Attrs}
    (fits : (endpointAttrs order endpoint rest).Fits order) : rest.Fits order := by
  cases endpoint with
  | none => exact fits
  | some address => exact fits.2.2

def Entry.read : Entry → WgPeer
  | .first peer ips =>
      { peer.asWgPeer with
        endpoint := peer.endpoint.map (·.unlabelled)
        allowedIps := ips }
  | .continued publicKey ips =>
      { WgPeer.default with
        publicKey := publicKey
        allowedIps := ips }

section

variable (peer : WgPeer)

include peer

theorem peerAttr_presharedKey (key : Key) :
    peerAttr order peer (WgPeerAttr.PresharedKey, key.bytes) = .ok
        { peer with
          presharedKey := (nonZeroKey key).or peer.presharedKey } := by
  simp only [peerAttr, WgPeerAttr.PresharedKey, WgPeerAttr.PublicKey,
    takeKey_bytes, Option.bind_some]
  by_cases zero : key = Key.zero <;> simp [nonZeroKey, zero]

theorem peerAttr_publicKey (key : Key) :
    peerAttr order peer (WgPeerAttr.PublicKey, key.bytes) = .ok { peer with publicKey := key } := by
  simp [peerAttr]

theorem peerAttr_lastHandshake (time : KernelTime) :
    peerAttr order peer (WgPeerAttr.LastHandshake, time.bytes order) =
      .ok { peer with lastHandshake := time.time } := by
  rw [← parseTimespec_bytes order]
  rfl

theorem peerAttr_persistentKeepalive (interval : BitVec 16) : peerAttr order peer
        (WgPeerAttr.PersistentKeepalive, order.toBytes 2 interval.toNat) =
      .ok { peer with persistentKeepalive := some interval } := by
  change (getU16Ne order _ >>= _) = _
  rw [getU16Ne_toBytes]
  rfl

theorem peerAttr_txBytes (count : BitVec 64) :
    peerAttr order peer (WgPeerAttr.TxBytes, order.toBytes 8 count.toNat) =
      .ok { peer with txBytes := count } := by
  change (getU64Ne order _ >>= _) = _
  rw [getU64Ne_toBytes]
  rfl

theorem peerAttr_rxBytes (count : BitVec 64) :
    peerAttr order peer (WgPeerAttr.RxBytes, order.toBytes 8 count.toNat) =
      .ok { peer with rxBytes := count } := by
  change (getU64Ne order _ >>= _) = _
  rw [getU64Ne_toBytes]
  rfl

theorem peerAttr_protocolVersion (version : BitVec 32) : peerAttr order peer
        (WgPeerAttr.ProtocolVersion, order.toBytes 4 version.toNat) =
      .ok { peer with protocolVersion := some version } := by
  change (getU32Ne order _ >>= _) = _
  rw [getU32Ne_toBytes]
  rfl

end

theorem parsePeerAttrs_encode {entry : Entry} (fits : (entry.attrs order).Fits order) :
    parsePeerAttrs order ((entry.attrs order).encode order) = .ok entry.read := by
  rw [parsePeerAttrs, attrIter_encode order fits]
  cases entry with
  | first peer ips =>
      obtain ⟨_, _, _, _, _, _, _, _, _, _, _, _, _, _, restFits⟩ := fits
      have ipsFit := fits_of_endpointAttrs order restFits
      simp only [Entry.attrs, level, foldlM_cons, peerAttr_publicKey,
        peerAttr_presharedKey, peerAttr_lastHandshake, peerAttr_persistentKeepalive,
        peerAttr_txBytes, peerAttr_rxBytes, peerAttr_protocolVersion, bind, Except.bind]
      rw [foldlM_endpointAttrs, foldlM_allowedIpsAttrs order ipsFit]
      simp [WgPeer.default, Entry.read, KernelPeer.asWgPeer]
  | continued publicKey ips =>
      obtain ⟨_, _, ipsFit⟩ := fits
      simp only [Entry.attrs, level, foldlM_cons, peerAttr_publicKey, bind, Except.bind]
      rw [foldlM_allowedIpsAttrs order ipsFit]
      simp [WgPeer.default, Entry.read]

theorem parsePeersAttr_nests {entries : List Entry}
    (fits : (nests (entries.map (·.attrs order))).Fits order) (found : List WgPeer) :
    parsePeersAttr order ((nests (entries.map (·.attrs order))).encode order) found =
      .ok (found ++ entries.map (·.read)) := by
  rw [parsePeersAttr, attrIter_encode order fits, level_nests, map_map]
  refine foldlM_items ?_ found
  rw [forall₂_map_left_iff, forall₂_map_right_iff, forall₂_same]
  intro entry mem found
  have read := parsePeerAttrs_encode order (fits_of_mem_nests order fits (mem_map_of_mem mem))
  simp only [Function.comp_apply, read]
  rfl

theorem foldlM_peersAttrs {entries : List Entry} (fits : (peersAttrs order entries).Fits order)
    (device : WgDevice) :
    ((peersAttrs order entries).level order).foldlM (deviceAttr order) device =
      .ok { device with peers := device.peers ++ entries.map (·.read) } := by
  rw [peersAttrs, level, foldlM_cons]
  change (parsePeersAttr order _ _ >>= _) >>= _ = _
  rw [parsePeersAttr_nests order fits.2.2.1]
  rfl

end Entries

section Devices

variable {order : ByteOrder} {device : KernelDevice}

section

variable (read : WgDevice)

include read

theorem deviceAttr_listenPort (port : BitVec 16) : deviceAttr order read
        (WgDeviceAttr.ListenPort, order.toBytes 2 port.toNat) =
      .ok { read with listenPort := some port } := by
  change (getU16Ne order _ >>= _) = _
  rw [getU16Ne_toBytes]
  rfl

theorem deviceAttr_fwmark (mark : BitVec 32) :
    deviceAttr order read (WgDeviceAttr.Fwmark, order.toBytes 4 mark.toNat) =
      .ok { read with fwmark := some mark } := by
  change (getU32Ne order _ >>= _) = _
  rw [getU32Ne_toBytes]
  rfl

theorem deviceAttr_ifindex (index : BitVec 32) : deviceAttr order read
        (WgDeviceAttr.Ifindex, order.toBytes 4 index.toNat) =
      .ok { read with ifindex := some index } := by
  change (getU32Ne order _ >>= _) = _
  rw [getU32Ne_toBytes]
  rfl

theorem deviceAttr_ifname (device : KernelDevice) : deviceAttr order read
        (WgDeviceAttr.Ifname, asBytes device.ifname ++ [0]) =
      .ok { read with ifname := some device.ifname } := by
  change (getString _ >>= _) = _
  rw [getString_asBytes device.nameEnds]
  rfl

theorem deviceAttr_privateKey (key : Key) :
    deviceAttr order read (WgDeviceAttr.PrivateKey, key.bytes) =
      .ok { read with privateKey := nonZeroKey key } := by
  simp [deviceAttr, parseDeviceAttrScalar, WgDeviceAttr.PrivateKey,
    WgDeviceAttr.Peers, WgDeviceAttr.Ifindex, WgDeviceAttr.Ifname]

theorem deviceAttr_publicKey (key : Key) :
    deviceAttr order read (WgDeviceAttr.PublicKey, key.bytes) =
      .ok { read with publicKey := nonZeroKey key } := by
  simp [deviceAttr, parseDeviceAttrScalar, WgDeviceAttr.PublicKey, WgDeviceAttr.PrivateKey,
    WgDeviceAttr.Peers, WgDeviceAttr.Ifindex, WgDeviceAttr.Ifname]

end

theorem parseDeviceAttrs_start {entries : List Entry}
    (fits : (device.attrs order entries).Fits order) :
    parseDeviceAttrs order ((device.attrs order entries).encode order) WgDevice.new =
      .ok { device.asWgDevice with peers := entries.map (·.read) } := by
  have peersFit : (peersAttrs order entries).Fits order := fits.2.2.2.2.2.2.2.2.2.2.2.2
  rw [parseDeviceAttrs, attrIter_encode order fits]
  simp only [KernelDevice.attrs, level, foldlM_cons, deviceAttr_listenPort,
    deviceAttr_fwmark, deviceAttr_ifindex, deviceAttr_ifname, deviceAttr_privateKey,
    deviceAttr_publicKey, bind, Except.bind]
  rw [foldlM_peersAttrs order peersFit]
  rfl

theorem parseDeviceAttrs_later {entries : List Entry} (fits : (peersAttrs order entries).Fits order)
    (read : WgDevice) :
    parseDeviceAttrs order ((peersAttrs order entries).encode order) read =
      .ok { read with peers := read.peers ++ entries.map (·.read) } := by
  rw [parseDeviceAttrs, attrIter_encode order fits]
  exact foldlM_peersAttrs order fits read

theorem deviceResponse_headers {headers : List UInt8}
    (length : headers.length = NLMSG_HDRLEN + GENL_HDRLEN) (data : List UInt8) (read : WgDevice) :
    deviceResponse order read (headers ++ data) = parseDeviceAttrs order data read := by
  rw [deviceResponse, if_neg (by rw [length_append]; omega), ← length, drop_left]

theorem foldlM_later {headers : Nat → List UInt8}
    (headersLength : ∀ index, (headers index).length = NLMSG_HDRLEN + GENL_HDRLEN)
    {messages : List (List Entry)}
    (fit : ∀ entries ∈ messages, (peersAttrs order entries).Fits order) (read : WgDevice) :
    (messages.mapIdx fun index entries =>
        headers (index + 1) ++ (peersAttrs order entries).encode order).foldlM
        (deviceResponse order) read =
      .ok
        { read with
          peers := read.peers ++ messages.flatten.map (·.read) } := by
  induction messages generalizing headers read with
  | nil => simp [pure, Except.pure]
  | cons entries rest ih =>
      have first := parseDeviceAttrs_later (fit entries mem_cons_self) read
      have restRead := ih (fun index => headersLength (index + 1))
        (fun others mem => fit others (mem_cons_of_mem _ mem))
        { read with peers := read.peers ++ entries.map (·.read) }
      rw [mapIdx_cons, foldlM_cons, deviceResponse_headers (headersLength _), first]
      simp only [flatten_cons, map_append]
      rw [List.append_assoc] at restRead
      exact restRead

/-- A peer as it is read: its endpoint has no flow label. -/
def KernelPeer.read (peer : KernelPeer) : WgPeer :=
  { peer.asWgPeer with endpoint := peer.endpoint.map (·.unlabelled) }

/-- The entry of a peer that is read last. -/
def SplitPeer.read (split : SplitPeer) : WgPeer :=
  match split.continued.getLast? with
  | none => (Entry.first split.peer split.begun).read
  | some ips => (Entry.continued split.peer.publicKey ips).read

/-- A device as it is read: each entry is a peer. -/
def Dump.read (dump : Dump order device) : WgDevice :=
  { device.asWgDevice with peers := (dump.splits.flatMap (·.entries)).map (·.read) }

theorem getDeviceByName_responses (dump : Dump order device) (ifname : String) :
    getDeviceByName order ifname dump.responses = .ok dump.read := by
  have first := parseDeviceAttrs_start dump.startFits
  have rest := foldlM_later dump.headers_length dump.laterFit
    { device.asWgDevice with peers := dump.start.map (·.read) }
  rw [getDeviceByName, Dump.responses, if_neg (cons_ne_nil _ _), foldlM_cons,
    deviceResponse_headers (dump.headers_length 0), first, Dump.read, ← dump.entries_eq, map_append]
  exact rest

theorem SplitPeer.begun_of_alone {split : SplitPeer} (alone : split.continued = []) :
    split.begun = split.peer.allowedIps := by
  rw [← split.whole, alone, flatten_nil, List.append_nil]

theorem read_first {split : SplitPeer} (alone : split.continued = []) :
    split.entries.map (·.read) = [split.peer.read] := by
  rw [SplitPeer.entries, alone, split.begun_of_alone alone]
  rfl

theorem map_unlabelled_eq_iff (endpoint : Option SocketAddr) :
    endpoint.map (·.unlabelled) = endpoint ↔ ∀ ip port flowinfo scopeId,
        endpoint = some (.v6 ip port flowinfo scopeId) → flowinfo = 0 := by
  rcases endpoint with _ | ⟨ip, port⟩ | ⟨ip, port, flowinfo, scopeId⟩
  · simp
  · simp [SocketAddr.unlabelled]
  · constructor
    · intro same _ _ _ _ eq
      cases eq
      have fields := SocketAddr.v6.inj (Option.some.inj same)
      exact fields.2.2.1.symm
    · intro zero
      rw [zero ip port flowinfo scopeId rfl]
      rfl

theorem length_le_entries (splits : List SplitPeer) :
    splits.length ≤ (splits.flatMap (·.entries)).length := by
  induction splits with
  | nil => exact Nat.le_refl 0
  | cons split rest ih =>
      rw [flatMap_cons, length_append, length_cons, SplitPeer.entries, length_cons]
      omega

theorem continued_of_length {splits : List SplitPeer}
    (length : (splits.flatMap (·.entries)).length = splits.length) :
    ∀ split ∈ splits, split.continued = [] := by
  induction splits with
  | nil =>
      intro split mem
      cases mem
  | cons split rest ih =>
      have atLeast := length_le_entries rest
      rw [flatMap_cons, length_append, length_cons,
        SplitPeer.entries, length_cons, length_map] at length
      intro other mem
      rcases mem_cons.mp mem with rfl | mem
      · exact length_eq_zero_iff.mp (by omega)
      · exact ih (by omega) other mem

theorem map_read_of_whole {splits : List SplitPeer}
    (whole : ∀ split ∈ splits, split.continued = []) :
    (splits.flatMap (·.entries)).map (·.read) = (splits.map (·.peer)).map (·.read) := by
  rw [map_flatMap, map_map]
  induction splits with
  | nil => rfl
  | cons split rest ih =>
      rw [flatMap_cons, map_cons, read_first (whole split mem_cons_self),
        ih fun other mem => whole other (mem_cons_of_mem _ mem)]
      rfl

theorem map_read_eq_iff (peers : List KernelPeer) : peers.map (·.read) = peers.map (·.asWgPeer) ↔
      ∀ peer ∈ peers, ∀ ip port flowinfo scopeId,
        peer.endpoint = some (.v6 ip port flowinfo scopeId) → flowinfo = 0 := by
  rw [map_inj_left]
  refine forall₂_congr fun peer _ => ?_
  rw [← map_unlabelled_eq_iff]
  constructor
  · intro same
    exact congrArg WgPeer.endpoint same
  · intro same
    rw [KernelPeer.read, same]
    rfl

/-- A device is read as it is exactly when no peer is continued in a later
message and no endpoint has a flow label. -/
theorem getDeviceByName_eq_iff (order : ByteOrder) (device : KernelDevice)
    (dump : Dump order device) (ifname : String) :
    getDeviceByName order ifname dump.responses = .ok device.asWgDevice ↔
      dump.Whole ∧ device.Unlabelled := by
  rw [getDeviceByName_responses, Dump.read]
  have peersRead : ∀ peers, (.ok { device.asWgDevice with peers := peers } : Except Error _) =
            .ok device.asWgDevice ↔
          peers = device.peers.map (·.asWgPeer) := by
    intro peers
    simp [KernelDevice.asWgDevice]
  rw [peersRead, ← dump.peers_eq]
  constructor
  · intro same
    have whole : dump.Whole := by
      apply continued_of_length
      simpa using congrArg List.length same
    rw [map_read_of_whole whole, map_read_eq_iff, dump.peers_eq] at same
    exact ⟨whole, same⟩
  · rintro ⟨whole, unlabelled⟩
    rw [map_read_of_whole whole, map_read_eq_iff, dump.peers_eq]
    exact unlabelled

/-- A peer with two allowed IPs. -/
def splitPeer : KernelPeer where
  publicKey := Key.zero
  presharedKey := Key.zero
  endpoint := none
  persistentKeepalive := 25
  lastHandshake := KernelTime.zero
  rxBytes := 0
  txBytes := 0
  allowedIps := [{ addr := .v4 0x0a000000, cidr := 24 }, { addr := .v4 0x0a000100, cidr := 24 }]
  protocolVersion := 1

/-- A device whose only peer has two allowed IPs. -/
def splitDevice : KernelDevice where
  ifindex := 7
  ifname := "wg0"
  privateKey := Key.zero
  publicKey := Key.zero
  listenPort := 51820
  fwmark := 0
  peers := [splitPeer]
  nameEnds := by decide +kernel
  nameShort := by decide +kernel
  distinct := by decide

/-- The peer is continued in a second message. -/
def splitDump : Dump .little splitDevice where
  splits :=
    [{ peer := splitPeer
       begun := splitPeer.allowedIps.take 1
       continued := [splitPeer.allowedIps.drop 1]
       whole := rfl }]
  start := [.first splitPeer (splitPeer.allowedIps.take 1)]
  later := [[.continued splitPeer.publicKey (splitPeer.allowedIps.drop 1)]]
  headers _ := List.replicate 20 0
  peers_eq := rfl
  entries_eq := rfl
  continuesFirst := by decide
  headers_length _ := rfl
  startFits := by decide +kernel
  laterFit := by decide +kernel

/-- A device whose only peer is continued is read as a device with two
peers. -/
theorem getDeviceByName_splitDump : (getDeviceByName .little "wg0" splitDump.responses).map
          (·.peers.length) = .ok 2 ∧
      splitDevice.peers.length = 1 ∧
      getDeviceByName .little "wg0" splitDump.responses ≠ .ok splitDevice.asWgDevice := by
  have read := getDeviceByName_responses splitDump "wg0"
  refine ⟨by rw [read]; rfl, rfl, fun same => ?_⟩
  rw [read] at same
  have peers := congrArg WgDevice.peers (Except.ok.inj same)
  have lengths : 2 = 1 := congrArg List.length peers
  omega

end Devices

section Exists

/-!
## Every device has a dump
-/

variable (order : ByteOrder)

attribute [local simp] Attrs.Fits Attrs.encode attrBytes_length nlaAlign NLA_HDRLEN
  NLA_F_NET_BYTEORDER

theorem fits_allowedIpAttrs (ip : AllowedIp) :
    (ip.attrs order).Fits order ∧ ((ip.attrs order).encode order).length ≤ 36 := by
  rcases ip with ⟨bits | bits, cidr⟩ <;>
    simp [AllowedIp.attrs, AllowedIp.addrBytes, WgAllowedIpAttr.Family, WgAllowedIpAttr.IpAddr,
      WgAllowedIpAttr.CidrMask]

theorem fits_allowedIpsAttrs {ips : List AllowedIp} (single : ips.length ≤ 1) :
    (allowedIpsAttrs order ips).Fits order ∧
      ((allowedIpsAttrs order ips).encode order).length ≤ 44 := by
  rcases ips with _ | ⟨ip, _ | _⟩
  · exact ⟨trivial, Nat.zero_le _⟩
  · obtain ⟨fits, short⟩ := fits_allowedIpAttrs order ip
    simp [allowedIpsAttrs, nests, WgPeerAttr.AllowedIps, fits]
    omega
  · simp at single

theorem sockaddrToBytes_length_le (address : SocketAddr) :
    (sockaddrToBytes order address).length ≤ 28 := by
  cases address <;> simp [sockaddrToBytes]

theorem fits_endpointAttrs (endpoint : Option SocketAddr) {rest : Attrs} (fits : rest.Fits order) :
    (endpointAttrs order endpoint rest).Fits order ∧
      ((endpointAttrs order endpoint rest).encode order).length ≤
        32 + (rest.encode order).length := by
  cases endpoint with
  | none => exact ⟨fits, Nat.le_add_left _ _⟩
  | some address =>
      have short := sockaddrToBytes_length_le order address
      simp [endpointAttrs, WgPeerAttr.Endpoint, fits]
      omega

def Entry.allowedIps : Entry → List AllowedIp
  | .first _ ips | .continued _ ips => ips

theorem fits_entry {entry : Entry} (single : entry.allowedIps.length ≤ 1) :
    (entry.attrs order).Fits order ∧ ((entry.attrs order).encode order).length ≤ 1000 := by
  cases entry with
  | first peer ips =>
      obtain ⟨fits, short⟩ := @fits_allowedIpsAttrs order ips single
      obtain ⟨endpointFits, endpointShort⟩ := fits_endpointAttrs order peer.endpoint fits
      simp [Entry.attrs, WgPeerAttr.PublicKey, WgPeerAttr.PresharedKey, WgPeerAttr.LastHandshake,
        WgPeerAttr.PersistentKeepalive, WgPeerAttr.TxBytes, WgPeerAttr.RxBytes,
        WgPeerAttr.ProtocolVersion, Key.length_eq, WG_KEY_LEN, KernelTime.bytes, endpointFits]
      omega
  | continued key ips =>
      obtain ⟨fits, short⟩ := @fits_allowedIpsAttrs order ips single
      simp [Entry.attrs, WgPeerAttr.PublicKey, Key.length_eq, WG_KEY_LEN, fits]
      omega

theorem fits_peersAttrs {entries : List Entry} (few : entries.length ≤ 1)
    (single : ∀ entry ∈ entries, entry.allowedIps.length ≤ 1) : (peersAttrs order entries).Fits order := by
  rcases entries with _ | ⟨entry, _ | _⟩
  · exact ⟨by decide, Nat.le_of_ble_eq_true rfl, trivial, trivial⟩
  · obtain ⟨fits, short⟩ := fits_entry order (single entry mem_cons_self)
    simp [peersAttrs, nests, WgDeviceAttr.Peers, fits]
    omega
  · simp at few

theorem fits_deviceAttrs (device : KernelDevice) : (device.attrs order []).Fits order := by
  have short := device.nameShort
  have peers := @fits_peersAttrs order [] (Nat.zero_le _) (by simp)
  simp [KernelDevice.attrs, WgDeviceAttr.ListenPort, WgDeviceAttr.Fwmark, WgDeviceAttr.Ifindex,
    WgDeviceAttr.Ifname, WgDeviceAttr.PrivateKey, WgDeviceAttr.PublicKey, Key.length_eq, WG_KEY_LEN,
    peers]
  rw [IFNAMSIZ] at short
  omega

/-- A peer of which every entry has one allowed IP. -/
def KernelPeer.split (peer : KernelPeer) : SplitPeer where
  peer := peer
  begun := peer.allowedIps.take 1
  continued := (peer.allowedIps.drop 1).map fun ip => [ip]
  whole := by rw [← flatMap_def, flatMap_singleton', take_append_drop]

/-- A dump that begins without a peer and has an entry in each later message. -/
def KernelDevice.dump (device : KernelDevice) : Dump order device where
  splits := device.peers.map (·.split)
  start := []
  later := ((device.peers.map (·.split)).flatMap (·.entries)).map fun entry => [entry]
  headers _ := List.replicate 20 0
  peers_eq := by
    rw [map_map]
    exact map_id _
  entries_eq := by rw [List.nil_append, ← flatMap_def, flatMap_singleton']
  continuesFirst := by
    intro entries member entry isLater
    rcases mem_cons.mp member with rfl | member
    · cases isLater
    · obtain ⟨first, _, rfl⟩ := mem_map.mp member
      cases isLater
  headers_length _ := rfl
  startFits := fits_deviceAttrs order device
  laterFit := by
    intro entries member
    obtain ⟨entry, isEntry, rfl⟩ := mem_map.mp member
    obtain ⟨split, isSplit, isEntry⟩ := mem_flatMap.mp isEntry
    obtain ⟨peer, _, rfl⟩ := mem_map.mp isSplit
    refine fits_peersAttrs order (Nat.le_refl 1) fun other isOther => ?_
    rw [mem_singleton.mp isOther]
    rcases mem_cons.mp isEntry with rfl | continues
    · exact length_take_le 1 _
    · obtain ⟨ips, isIps, rfl⟩ := mem_map.mp continues
      obtain ⟨ip, _, rfl⟩ := mem_map.mp isIps
      exact Nat.le_refl 1

end Exists

end Nlink.Wireguard
