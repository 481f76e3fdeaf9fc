import Nlink.WireguardReconcile

namespace Nlink.Wireguard

open Foundation Netlink Network Nftables List

/-!
# Adding a configuration file to a device

`wg addconf` is documented to remove no peer.  It applies the parsed file as a
declaration, and so it removes every peer that the file does not list, unless it
fails before.
-/

namespace Conf

/-- `run_addconf`, for a file whose contents have been read. -/
def runAddconf (decode : List Char → Except String (List UInt8)) (order : ByteOrder)
    (dumps : Dumps order) (kernel : Kernel) (ifname contents : String) :
    Except ApplyFailure ApplyState :=
  match parse decode contents ifname with
  | .error error =>
      .error
        { error := error
          state :=
            { kernel := kernel
              deviceWrites := 0
              peerWrites := 0
              peerRemovals := 0 } }
  | .ok config => config.apply order dumps kernel

end Conf

section Additive

/-- What is to hold of a peer that a file does not list: it keeps its endpoint,
its interval and the allowed IPs that the file does not assign. -/
structure LeftAlone (declared : DeclaredWgDevice) (before after : KernelPeer) : Prop where
  endpoint_eq : after.endpoint = before.endpoint
  keepalive_eq : after.persistentKeepalive = before.persistentKeepalive
  allowedIps : after.allowedIps.Sublist before.allowedIps
  unassigned : ∀ ip ∈ before.allowedIps,
    (∀ peer ∈ declared.peers, ip ∉ peer.masks) → ip ∈ after.allowedIps

/-- Every peer of a device that is not listed is still there, and has been left
alone. -/
def Additive (declared : DeclaredWgDevice) (before after : KernelDevice) : Prop :=
  ∀ key peer, before.lookup key = some peer → key ∉ declared.peers.map (·.publicKey) →
      ∃ found, after.lookup key = some found ∧ LeftAlone declared peer found

variable {declared : DeclaredWgDevice} {peer : KernelPeer}

theorem LeftAlone.refl : LeftAlone declared peer peer where
  endpoint_eq := rfl
  keepalive_eq := rfl
  allowedIps := List.Sublist.refl _
  unassigned _ mem _ := mem

theorem LeftAlone.yield {found : KernelPeer} (alone : LeftAlone declared peer found)
    {ips : List AllowedIp}
    (assigned : ∀ ip ∈ ips, ∃ other ∈ declared.peers, ip ∈ other.allowedIps) :
    LeftAlone declared peer (found.yield ips) where
  endpoint_eq := alone.endpoint_eq
  keepalive_eq := alone.keepalive_eq
  allowedIps := filter_sublist.trans alone.allowedIps
  unassigned ip mem free := by
    refine mem_filter.mpr ⟨alone.unassigned ip mem free, ?_⟩
    rw [decide_eq_true_iff, mem_map]
    rintro ⟨taken, takenMem, rfl⟩
    obtain ⟨other, listed, declares⟩ := assigned taken takenMem
    exact free other listed (mem_map_of_mem declares)

end Additive

section Requests

variable {declared : DeclaredWgDevice} {device : KernelDevice}

theorem leftAlone_of_writes {current : WgDevice} {builders : List WgPeerBuilder}
    (written : ∀ builder ∈ builders, builder ∈ declared.writes (declared.diffAgainst current))
    {key : Key} {peer : KernelPeer} (found : device.lookup key = some peer)
    (unlisted : key ∉ declared.peers.map (·.publicKey)) :
    ∃ after, (device.setPeers builders).lookup key = some after ∧
      LeftAlone declared peer after := by
  refine KernelDevice.lookup_setPeers_of_unnamed
    (fun kept => ∃ after, kept = some after ∧ LeftAlone declared peer after)
    (fun builder member same => ?_) (fun builder member kept => ?_)
    ⟨peer, found, .refl⟩
  · obtain ⟨listed, isListed, sameKey, _⟩ := DeclaredWgDevice.of_mem_writes (written _ member)
    exact unlisted (same ▸ sameKey ▸ mem_map_of_mem isListed)
  · rintro ⟨after, rfl, alone⟩
    refine ⟨_, rfl, alone.yield fun ip mem => ?_⟩
    obtain ⟨listed, isListed, _, none | ips⟩ := DeclaredWgDevice.of_mem_writes (written _ member)
    · rw [none] at mem
      cases mem
    · exact ⟨listed, isListed, ips ▸ mem⟩

theorem fits_remove (order : ByteOrder) (device : KernelDevice) (key : Key) :
    (WireguardConfig.peerRequest order device.ifname
      (WgPeerBuilder.new key).remove).Fits order := by
  have short := device.nameShort
  rw [IFNAMSIZ] at short
  have name : NLA_HDRLEN + (asBytes device.ifname ++ [0]).length ≤ 65535 := by
    rw [length_append, NLA_HDRLEN, length_singleton]
    omega
  have keyLength := key.length_eq
  rw [WG_KEY_LEN] at keyLength
  have inner : ((((WgPeerBuilder.new key).remove.tree order).attrs
      order).encode order).length = 44 := by
    simp [WgPeerBuilder.tree, WgPeerBuilder.remove, WgPeerBuilder.new,
      WgPeerFlags.RemoveMe, attrSome, nestSome, AttrTree.attrs, Attrs.encode,
      Attrs.attrBytes_length, AttrValue.payload, keyLength, nlaAlign]
  have innerFits : (((WgPeerBuilder.new key).remove.tree order).attrs order).Fits
        order := by
    simp [WgPeerBuilder.tree, WgPeerBuilder.remove, WgPeerBuilder.new, WgPeerFlags.RemoveMe,
      attrSome, nestSome, AttrTree.attrs, Attrs.Fits, AttrValue.payload, keyLength, NLA_HDRLEN,
      WgPeerAttr.PublicKey, WgPeerAttr.Flags, NLA_F_NET_BYTEORDER]
  have outer : ((Attrs.nest 0 (((WgPeerBuilder.new key).remove.tree order).attrs order)
      .nil).encode order).length = 48 := by
    rw [Attrs.encode, length_append, Attrs.attrBytes_length, inner]
    rfl
  refine ⟨by decide, name, by decide, ?_, ⟨by decide, ?_, innerFits, trivial⟩, trivial⟩
  · change NLA_HDRLEN + ((Attrs.nest 0 _ .nil).encode order).length ≤ 65535
    rw [outer]
    decide
  · rw [inner]
    decide

end Requests

namespace WireguardConfig

variable {kernel : Kernel} {device : KernelDevice}

theorem makes_apply {order : ByteOrder} (dumps : Dumps order) {declared : DeclaredWgDevice}
    (found : kernel.device declared.ifname = some device) :
    ∃ scalars : Kernel, Sets declared.ifname kernel scalars
        (device.setDeclared declared (declared.diffAgainst (dumps device).read)) ∧
      Makes order declared.ifname scalars
        (device.setDeclared declared (declared.diffAgainst (dumps device).read))
        (declared.requests (declared.diffAgainst (dumps device).read))
        (({ devices := [declared] } : WireguardConfig).apply order dumps kernel) := by
  have present : ∀ other ∈ [declared], ∃ device, kernel.device other.ifname = some device := by
    intro other member
    rw [mem_singleton.mp member]
    exact ⟨device, found⟩
  have diff := @diff_of_exists order kernel dumps { devices := [declared] } present
  rw [apply, diff]
  by_cases empty : (declared.diffAgainst (dumps device).read).isEmpty = true
  · obtain ⟨scalars, requests⟩ := nothing_of_isEmpty device empty declared
    have entries : [declared].filterMap (entry dumps kernel) = [] := by simp [entry, found, empty]
    refine ⟨kernel, ?_, ?_⟩
    · rw [scalars]
      exact Sets.refl found
    · rw [scalars, requests, entries]
      exact Makes.nil (Sets.refl found)
  · have entries : [declared].filterMap (entry dumps kernel) =
          [(declared.ifname, declared.diffAgainst (dumps device).read)] := by
      simp [entry, found, empty]
    let start : ApplyState :=
      { kernel := kernel
        deviceWrites := 0
        peerWrites := 0
        peerRemovals := 0 }
    obtain ⟨scalars, set, makes⟩ := @makes_applyChanges device order declared _
      (declaresModified_diffAgainst declared (dumps device).read) start found
    refine ⟨scalars.kernel, set, ?_⟩
    have search : [declared].find? (·.ifname = declared.ifname) = some declared :=
      find?_cons_of_pos (decide_eq_true rfl)
    rw [entries]
    simp only [↓reduceIte, foldlM_cons, foldlM_nil, bind_pure, applyDevice, search]
    exact makes

end WireguardConfig

/-- Whether an apply of one declared device is additive. -/
theorem additive_apply_iff {order : ByteOrder} (dumps : Dumps order) {kernel : Kernel} {declared : DeclaredWgDevice}
    {device : KernelDevice} (found : kernel.device declared.ifname = some device) :
    (∃ after, (kernelAfter (({ devices := [declared] } : WireguardConfig).apply order
          dumps kernel)).device declared.ifname = some after ∧
        Additive declared device after) ↔
      (∀ key ∈ device.peers.map (·.publicKey), key ∈ declared.peers.map (·.publicKey)) ∨
        ∃ request ∈ declared.requests (declared.diffAgainst (dumps device).read),
          ¬ (WireguardConfig.peerRequest order declared.ifname request).Fits order := by
  obtain ⟨scalars, scalarsSet, makes⟩ := WireguardConfig.makes_apply dumps found
  have start := lookup_setDeclared device declared
  have named := kernel.named _ _ found
  have removalsFit : ∀ request ∈ removals (declared.diffAgainst (dumps device).read).peersToRemove,
      (WireguardConfig.peerRequest order declared.ifname request).Fits
        order := by
    intro request member
    obtain ⟨key, _, rfl⟩ := mem_map.mp member
    exact named ▸ fits_remove order device key
  cases result : ({ devices := [declared] } : WireguardConfig).apply order
      dumps kernel with
  | ok last =>
      rw [result] at makes
      obtain ⟨fits, set⟩ := makes
      have after := set.found
      constructor
      · rintro ⟨other, otherFound, additive⟩
        rw [kernelAfter, after, Option.some.injEq] at otherFound
        subst otherFound
        left
        by_contra unlisted
        push Not at unlisted
        obtain ⟨key, known, unlisted⟩ := unlisted
        obtain ⟨peer, member, rfl⟩ := mem_map.mp known
        have isPeer := KernelDevice.lookup_eq_some_iff.mpr ⟨member, rfl⟩
        obtain ⟨kept, keptFound, _⟩ := additive _ peer isPeer unlisted
        rw [DeclaredWgDevice.requests, KernelDevice.setPeers_append, lookup_setPeers_removals,
          if_pos ((dumps device).mem_peersToRemove.mpr ⟨known, unlisted⟩)] at keptFound
        cases keptFound
      · rintro (listed | ⟨request, member, unfit⟩)
        · refine ⟨_, after, fun key peer isPeer unlisted => ?_⟩
          obtain ⟨member, rfl⟩ := KernelDevice.lookup_eq_some_iff.mp isPeer
          exact absurd (listed _ (mem_map_of_mem member)) unlisted
        · exact absurd (fits request member) unfit
  | error failure =>
      rw [result] at makes
      obtain ⟨front, refused, back, split, unfit, set⟩ := makes
      refine iff_of_true ⟨_, set.found, fun key peer isPeer unlisted => ?_⟩
        (.inr ⟨refused, split ▸ mem_append_right _ mem_cons_self, unfit⟩)
      -- What is refused is a write, so that only writes were made before it.
      have frontWrites : ∀ request ∈ front,
          request ∈ declared.writes (declared.diffAgainst (dumps device).read) := by
        rw [DeclaredWgDevice.requests] at split
        rcases append_eq_append_iff.mp split with ⟨more, rfl, removed⟩ | ⟨more, writes, _⟩
        · have member : refused ∈ removals (declared.diffAgainst (dumps device).read).peersToRemove :=
            removed ▸ mem_append_right _ mem_cons_self
          exact absurd (removalsFit refused member) unfit
        · intro request member
          exact writes ▸ mem_append_left _ member
      rw [← start] at isPeer
      exact leftAlone_of_writes frontWrites isPeer unlisted

/-- What a configuration is added to keeps the peers that are not listed. -/
def AddsOnly (config : WireguardConfig) (before after : Kernel) : Prop :=
  ∀ declared ∈ config.devices, ∀ device, before.device declared.ifname = some device →
      ∃ other, after.device declared.ifname = some other ∧ Additive declared device other

namespace Conf

theorem exists_of_parse {decode : List Char → Except String (List UInt8)} {contents ifname : String}
    {config : WireguardConfig} (parsed : parse decode contents ifname = .ok config) :
    ∃ declared, config = { devices := [declared] } ∧ declared.ifname = ifname := by
  simp only [parse, bind_eq_ok_iff] at parsed
  obtain ⟨state, _, peers, _, made⟩ := parsed
  cases made
  exact ⟨_, rfl, rfl⟩

/-- Adding a file removes no unlisted peer exactly when there is none, or when
the kernel refuses a request that comes before the removals. -/
theorem runAddconf_addsOnly_iff (decode : List Char → Except String (List UInt8))
    (order : ByteOrder) (dumps : Dumps order) (kernel : Kernel) (ifname contents : String)
    (config : WireguardConfig)
    (parsed : parse decode contents ifname = .ok config) :
    AddsOnly config kernel (kernelAfter (runAddconf decode order dumps kernel ifname contents)) ↔
      ∀ declared ∈ config.devices, ∀ device, kernel.device declared.ifname = some device →
          (∀ key ∈ device.peers.map (·.publicKey), key ∈ declared.peers.map (·.publicKey)) ∨
            ∃ request ∈ declared.requests (declared.diffAgainst (dumps device).read),
              ¬ (WireguardConfig.peerRequest order declared.ifname request).Fits order := by
  rw [runAddconf, parsed]
  obtain ⟨declared, rfl, _⟩ := exists_of_parse parsed
  rw [AddsOnly]
  refine forall_congr' fun other => forall_congr' fun member => ?_
  obtain rfl := mem_singleton.mp member
  exact forall_congr' fun device => forall_congr' fun found => additive_apply_iff dumps found

def peerFile : String :=
  "[Peer]\n" ++ "PublicKey = AQEBAQEBAQEBAQEBAQEBAQEBAQEBAQEBAQEBAQEBAQE=\n" ++
    "AllowedIPs = 10.0.0.0/24\n"

/-- A key of 32 equal bytes. -/
def fillKey (byte : UInt8) : Key where
  bytes := List.replicate 32 byte
  length_eq := length_replicate

/-- A kernel whose only device has one peer. -/
def keyedKernel (key : Key) : Kernel :=
  bareKernel.update
    { bareDevice with
      peers := [KernelPeer.new key]
      distinct := nodup_singleton _ }

theorem parse_peerFile : (parse Base64.decode peerFile "wg0").toOption.map
        (fun config => config.devices.map fun declared => declared.peers.map (·.publicKey)) =
      some [[fillKey 1]] := by
  decide +kernel

theorem exists_parse_peerFile : ∃ declared,
    parse Base64.decode peerFile "wg0" = .ok { devices := [declared] } ∧
      declared.ifname = "wg0" ∧ declared.peers.map (·.publicKey) = [fillKey 1] := by
  have keys := parse_peerFile
  cases parsed : parse Base64.decode peerFile "wg0" with
  | error error =>
      rw [parsed] at keys
      cases keys
  | ok config =>
      obtain ⟨declared, rfl, name⟩ := exists_of_parse parsed
      rw [parsed] at keys
      exact ⟨declared, rfl, name, by simpa [Except.toOption] using keys⟩

/-- Adding to a device whose only peer is listed. -/
theorem runAddconf_addsOnly_listed : ∃ config, parse Base64.decode peerFile "wg0" = .ok config ∧
      AddsOnly config (keyedKernel (fillKey 1))
        (kernelAfter (runAddconf Base64.decode .little spread (keyedKernel (fillKey 1)) "wg0"
          peerFile)) := by
  obtain ⟨declared, parsed, name, keys⟩ := exists_parse_peerFile
  refine ⟨_, parsed, (runAddconf_addsOnly_iff Base64.decode .little spread
    (keyedKernel (fillKey 1)) "wg0" peerFile _ parsed).mpr ?_⟩
  intro other member device found
  obtain rfl := mem_singleton.mp member
  rw [name] at found
  obtain rfl := Option.some.inj found
  rw [keys]
  exact .inl fun key member => member

/-- Adding a peer to a device that has another removes the other. -/
theorem runAddconf_prunes : ∃ config, parse Base64.decode peerFile "wg0" = .ok config ∧
      ¬ AddsOnly config (keyedKernel (fillKey 2))
        (kernelAfter (runAddconf Base64.decode .little spread (keyedKernel (fillKey 2)) "wg0"
          peerFile)) := by
  have gone :
      (((kernelAfter (runAddconf Base64.decode .little spread (keyedKernel (fillKey 2)) "wg0"
            peerFile)).device "wg0").bind (·.lookup (fillKey 2))).isSome =
        false := by
    decide +kernel
  obtain ⟨declared, parsed, name, keys⟩ := exists_parse_peerFile
  refine ⟨_, parsed, fun additive => ?_⟩
  have unlisted : fillKey 2 ∉ declared.peers.map (·.publicKey) := by
    rw [keys]
    decide
  obtain ⟨other, after, kept⟩ := additive declared mem_cons_self _ (by rw [name]; rfl)
  obtain ⟨peer, found, _⟩ := kept (fillKey 2) (KernelPeer.new (fillKey 2)) rfl unlisted
  rw [name] at after
  rw [after, Option.bind_some, found] at gone
  cases gone

end Conf

end Nlink.Wireguard
