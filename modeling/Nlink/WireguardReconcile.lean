import Nlink.WireguardConverge

namespace Nlink.Wireguard

open Foundation Netlink Network Nftables List

/-!
# Reconciling with a configuration

An apply brings the kernel to the configuration, and the next difference lists
nothing but keys, exactly when every peer is declared in the form in which the
kernel keeps it and the dumps show the peers.  Of a peer that a dump continues
in a later message only the last entry is compared.
-/

/-- The only changes are of keys, which are never compared. -/
structure DeviceChanges.OnlyKeys (changes : DeviceChanges) : Prop where
  listenPort : changes.listenPortSet = false
  fwmark : changes.fwmarkSet = false
  added : changes.peersToAdd = []
  modified : ∀ modified ∈ changes.peersToModify, modified.2.endpointSet = false ∧
      modified.2.persistentKeepaliveSet = false ∧
      modified.2.allowedIpsSet = false
  removed : changes.peersToRemove = []

/-- What is declared for a peer is in force. -/
structure InForce (declared : DeclaredWgPeer) (peer : KernelPeer) : Prop where
  endpoint : ∀ address, declared.endpoint = some address → peer.endpoint = some address
  keepalive : ∀ duration, declared.persistentKeepalive = some duration →
    duration = .fromSecs peer.persistentKeepalive.toNat
  allowedIps : ∀ ip, ip ∈ peer.allowedIps ↔ ip ∈ declared.allowedIps.map (·.masked)

/-- The peers of a device are the declared ones, and what is declared is in
force. -/
structure DeviceInForce (declared : DeclaredWgDevice) (device : KernelDevice) : Prop where
  peers : ∀ key, key ∈ device.peers.map (·.publicKey) ↔ key ∈ declared.peers.map (·.publicKey)
  listenPort : ∀ port, declared.listenPort = some port → device.listenPort = port
  fwmark : ∀ mark, declared.fwmark = some mark → device.fwmark = mark
  inForce : ∀ peer ∈ declared.peers, ∀ kernelPeer ∈ device.peers,
    kernelPeer.publicKey = peer.publicKey → InForce peer kernelPeer

/-- A kernel has converged to a configuration, as its next dumps are read. -/
structure Converged {order : ByteOrder} (config : WireguardConfig) (next : Dumps order)
    (kernel : Kernel) : Prop where
  inForce : ∀ declared ∈ config.devices, ∃ device, kernel.device declared.ifname = some device ∧
      DeviceInForce declared device
  unchanged : ∃ diff, config.diff next kernel = .ok diff ∧ diff.devicesToAdd = [] ∧
    ∀ modified ∈ diff.devicesToModify, modified.2.OnlyKeys

/-- A peer is declared in the form in which the kernel keeps it, and what the
kernel has for it is not taken for what is declared. -/
structure Representable (declared : DeclaredWgDevice) (peer : DeclaredWgPeer)
    (current : Option SplitPeer) : Prop where
  /-- Every allowed IP is masked to its prefix, and no two are the same. -/
  allowedIps : StoredIps peer.allowedIps
  /-- The endpoint has no flow label. -/
  unlabelled : ∀ ip port flowinfo scopeId,
    peer.endpoint = some (.v6 ip port flowinfo scopeId) → flowinfo = 0
  /-- The keepalive is a number of seconds of 16 bits. -/
  keepalive : ∀ duration, peer.persistentKeepalive = some duration →
    duration.nanos = 0 ∧ duration.secs.toNat ≤ 65535
  /-- An endpoint that is read as the declared one does not differ in its flow
  label. -/
  endpoint : ∀ split address, current = some split → peer.endpoint = some address →
    split.read.endpoint = some address → split.peer.endpoint = some address
  /-- When the entry that is read last lists what is declared, the kernel has no
  other allowed IP for the peer, unless it is declared for another. -/
  kept : ∀ split, current = some split → peer.allowedIps.Perm split.read.allowedIps →
    ∀ ip ∈ split.peer.allowedIps, declared.Declares ip

/-- A dump shows a declared peer: the entry that is read last lists all of its
allowed IPs, and it is the only one if a scalar is declared. -/
structure Shown (peer : DeclaredWgPeer) (split : SplitPeer) : Prop where
  allowedIps : split.read.allowedIps = split.peer.allowedIps
  alone : split.continued = [] ∨ peer.endpoint = none ∧ peer.persistentKeepalive = none

section Peers

variable {declared : DeclaredWgDevice} {peer : DeclaredWgPeer} {split : SplitPeer}
variable {current : Option SplitPeer}

theorem fromSecs_wantSecs_iff (duration : Duration) : duration = .fromSecs duration.wantSecs.toNat ↔
      duration.nanos = 0 ∧ duration.secs.toNat ≤ 65535 := by
  have bound := duration.wantSecs.isLt
  have secsRead : (Duration.fromSecs duration.wantSecs.toNat).secs.toNat =
        duration.wantSecs.toNat := by
    rw [Duration.fromSecs, BitVec.toNat_ofNat]
    exact Nat.mod_eq_of_lt (by omega)
  constructor
  · intro same
    have secs := congrArg (fun other => other.secs.toNat) same
    refine ⟨congrArg Duration.nanos same, ?_⟩
    simp only [secsRead] at secs
    omega
  · rintro ⟨nanos, secs⟩
    have written : duration.wantSecs.toNat = duration.secs.toNat := by
      rw [Duration.wantSecs, if_pos secs, BitVec.toNat_ofNat]
      exact Nat.mod_eq_of_lt (by omega)
    rw [written, Duration.fromSecs, BitVec.ofNat_toNat, BitVec.setWidth_eq, ← nanos]

theorem endpoint_iff (settled : split.peer.endpoint = peer.settledEndpoint current) :
    ((∀ address, peer.endpoint = some address → split.peer.endpoint = some address) ∧
        (peer.diffAgainst split.read).endpointSet = false) ↔
      (∀ ip port flowinfo scopeId, peer.endpoint = some (.v6 ip port flowinfo scopeId) →
            flowinfo = 0) ∧
        (∀ found address, current = some found → peer.endpoint = some address →
          found.read.endpoint = some address → found.peer.endpoint = some address) ∧
        (split.continued = [] ∨ peer.endpoint = none) := by
  rw [endpointSet_eq_false_iff, ← map_unlabelled_eq_iff]
  cases declared : peer.endpoint with
  | none => simp
  | some address =>
      constructor
      · rintro ⟨inForce, read⟩
        have isRead := read address rfl
        have alone : split.continued = [] := by
          by_contra continues
          rw [(split.read_of_continued continues).1] at isRead
          cases isRead
        rw [split.read_of_alone alone] at isRead
        change split.peer.endpoint.map (·.unlabelled) = _ at isRead
        rw [inForce address rfl] at isRead
        refine ⟨isRead, ?_, .inl alone⟩
        rintro found _ rfl ⟨⟩ foundRead
        have unset : (peer.diffAgainst found.read).endpointSet = false := by
          rw [endpointSet_eq_false_iff, declared]
          rintro _ ⟨⟩
          exact foundRead
        rw [DeclaredWgPeer.settledEndpoint, unset] at settled
        exact settled.symm.trans (inForce address rfl)
      · rintro ⟨unlabelled, foundEndpoint, alone⟩
        have inForce : split.peer.endpoint = some address := by
          rw [settled]
          cases current with
          | none => exact declared
          | some found =>
              rw [DeclaredWgPeer.settledEndpoint]
              split
              · exact declared
              · rename_i set
                have unset := Bool.eq_false_of_not_eq_true set
                exact foundEndpoint found address rfl rfl
                  (endpointSet_eq_false_iff.mp unset address declared)
        refine ⟨?_, ?_⟩
        · rintro _ ⟨⟩
          exact inForce
        · rintro _ ⟨⟩
          rw [split.read_of_alone (alone.resolve_right (Option.some_ne_none _))]
          change split.peer.endpoint.map (·.unlabelled) = _
          rw [inForce]
          exact unlabelled

theorem keepalive_iff (settled : ∀ duration, peer.persistentKeepalive = some duration →
      split.peer.persistentKeepalive = duration.wantSecs) :
    ((∀ duration, peer.persistentKeepalive = some duration →
          duration = .fromSecs split.peer.persistentKeepalive.toNat) ∧
        (peer.diffAgainst split.read).persistentKeepaliveSet = false) ↔
      (∀ duration, peer.persistentKeepalive = some duration →
          duration.nanos = 0 ∧ duration.secs.toNat ≤ 65535) ∧
        (split.continued = [] ∨ peer.persistentKeepalive = none) := by
  rw [persistentKeepaliveSet_eq_false_iff]
  refine and_congr (forall₂_congr fun duration isDuration => ?_) ?_
  · rw [settled duration isDuration]
    exact fromSecs_wantSecs_iff duration
  cases isDuration : peer.persistentKeepalive with
  | none => simp
  | some duration =>
      constructor
      · intro read
        have isRead := read duration rfl
        left
        by_contra continues
        rw [(split.read_of_continued continues).2] at isRead
        cases isRead
      · rintro alone _ ⟨⟩
        rw [split.read_of_alone (alone.resolve_right (Option.some_ne_none _))]
        exact congrArg some (settled duration isDuration)

theorem allowedIps_iff (stored : StoredIps split.peer.allowedIps)
    (keeps : Keeps declared peer (peer.kept current) split.peer.allowedIps)
    (own : ∀ ip ∈ split.peer.allowedIps, declared.Declares ip → ip ∈ peer.masks)
    (listed : peer ∈ declared.peers) :
    ((∀ ip, ip ∈ split.peer.allowedIps ↔ ip ∈ peer.masks) ∧
        (peer.diffAgainst split.read).allowedIpsSet = false) ↔
      StoredIps peer.allowedIps ∧
        (∀ found, current = some found → peer.allowedIps.Perm found.read.allowedIps →
          ∀ ip ∈ found.peer.allowedIps, declared.Declares ip) ∧
        split.read.allowedIps = split.peer.allowedIps := by
  have sublist := split.read_allowedIps_sublist
  rw [allowedIpsSet_eq_false_iff]
  constructor
  · rintro ⟨inForce, perm⟩
    have declaredStored : StoredIps peer.allowedIps := by
      refine ⟨perm.nodup_iff.mpr (stored.1.sublist sublist), fun ip mem => ?_⟩
      exact stored.2 ip (sublist.subset (perm.mem_iff.mp mem))
    refine ⟨declaredStored, ?_, ?_⟩
    · rintro found rfl same ip mem
      have unset := allowedIpsSet_eq_false_iff.mpr same
      by_contra undeclared
      have kept : ip ∈ peer.kept (some found) := by
        rw [DeclaredWgPeer.kept, unset]
        exact mem
      exact undeclared ⟨peer, listed, (inForce ip).mp (keeps.keeps ip kept undeclared)⟩
    · refine sublist.eq_of_length ?_
      exact perm.length_eq.symm.trans
        ((perm_iff_of_stored stored inForce).mpr declaredStored).length_eq
  · rintro ⟨declaredStored, kept, shown⟩
    have inForce : ∀ ip, ip ∈ split.peer.allowedIps ↔ ip ∈ peer.masks := by
      refine fun ip => ⟨fun member => ?_, keeps.masks ip⟩
      rcases keeps.only ip member with mask | isKept
      · exact mask
      · cases current with
        | none => cases isKept
        | some found =>
            rw [DeclaredWgPeer.kept] at isKept
            split at isKept
            · cases isKept
            · rename_i set
              have unset := Bool.eq_false_of_not_eq_true set
              exact own ip member (kept found rfl (allowedIpsSet_eq_false_iff.mp unset) ip isKept)
    refine ⟨inForce, ?_⟩
    rw [shown]
    exact (perm_iff_of_stored stored inForce).mpr declaredStored

/-- A settled peer is in force and is read without a difference exactly when it
is representable and shown. -/
theorem settled_iff_representable (stored : StoredIps split.peer.allowedIps)
    (settles : Settles declared peer current split.peer)
    (own : ∀ ip ∈ split.peer.allowedIps, declared.Declares ip → ip ∈ peer.masks)
    (listed : peer ∈ declared.peers) :
    (InForce peer split.peer ∧ (peer.diffAgainst split.read).endpointSet = false ∧
        (peer.diffAgainst split.read).persistentKeepaliveSet = false ∧
        (peer.diffAgainst split.read).allowedIpsSet = false) ↔
      Representable declared peer current ∧ Shown peer split := by
  have endpoints := endpoint_iff settles.endpoint_eq
  have keepalives := keepalive_iff settles.keepalive
  have ips := allowedIps_iff stored settles.allowedIps own listed
  constructor
  · rintro ⟨inForce, endpointRead, keepaliveRead, ipsRead⟩
    obtain ⟨unlabelled, found, endpointAlone⟩ := endpoints.mp ⟨inForce.endpoint, endpointRead⟩
    obtain ⟨keepalive, keepaliveAlone⟩ := keepalives.mp ⟨inForce.keepalive, keepaliveRead⟩
    obtain ⟨masked, kept, shown⟩ := ips.mp ⟨inForce.allowedIps, ipsRead⟩
    exact ⟨⟨masked, unlabelled, keepalive, found, kept⟩, shown,
      or_and_left.mpr ⟨endpointAlone, keepaliveAlone⟩⟩
  · rintro ⟨⟨masked, unlabelled, keepalive, found, kept⟩, shown, alone⟩
    obtain ⟨endpointAlone, keepaliveAlone⟩ := or_and_left.mp alone
    obtain ⟨endpoint, endpointRead⟩ := endpoints.mpr ⟨unlabelled, found, endpointAlone⟩
    obtain ⟨interval, keepaliveRead⟩ := keepalives.mpr ⟨keepalive, keepaliveAlone⟩
    obtain ⟨allowedIps, ipsRead⟩ := ips.mpr ⟨masked, kept, shown⟩
    exact ⟨⟨endpoint, interval, allowedIps⟩, endpointRead, keepaliveRead, ipsRead⟩

end Peers

section Devices

variable {declared : DeclaredWgDevice} {device : KernelDevice}
variable {order : ByteOrder} {dump : Dump order device}

theorem setPeers_scalars (device : KernelDevice) (builders : List WgPeerBuilder) :
    (device.setPeers builders).listenPort = device.listenPort ∧
      (device.setPeers builders).fwmark = device.fwmark := by
  induction builders generalizing device with
  | nil => exact ⟨rfl, rfl⟩
  | cons builder rest ih =>
      have kept : (device.setPeer builder.publicKey builder.request).listenPort =
              device.listenPort ∧
            (device.setPeer builder.publicKey builder.request).fwmark =
              device.fwmark := by
        rw [KernelDevice.setPeer]
        split <;> exact ⟨rfl, rfl⟩
      obtain ⟨port, mark⟩ := ih (device.setPeer builder.publicKey builder.request)
      exact ⟨port.trans kept.1, mark.trans kept.2⟩

theorem reconcile_scalars (declared : DeclaredWgDevice) (dump : Dump order device) :
    (∀ port, declared.listenPort = some port →
        (device.reconcile declared dump.read).listenPort = port) ∧
      ∀ mark, declared.fwmark = some mark → (device.reconcile declared dump.read).fwmark = mark := by
  obtain ⟨port, mark⟩ := setPeers_scalars
    (device.setDeclared declared (declared.diffAgainst dump.read))
    (declared.requests (declared.diffAgainst dump.read))
  rw [KernelDevice.reconcile, port, mark, KernelDevice.setDeclared]
  split
  · refine ⟨fun port isPort => ?_, fun mark isMark => ?_⟩
    · change declared.listenPort.getD _ = _
      rw [isPort]
      rfl
    · change declared.fwmark.getD _ = _
      rw [isMark]
      rfl
  · rename_i unchanged
    simp only [DeviceChanges.hasDeviceLevelChange, DeclaredWgDevice.diffAgainst,
      Bool.not_eq_true, Bool.or_eq_false_iff] at unchanged
    obtain ⟨⟨_, portSame⟩, markSame⟩ := unchanged
    refine ⟨fun port isPort => ?_, fun mark isMark => ?_⟩
    · rw [isPort, Option.isSome_some, Bool.true_and, bne_eq_false_iff_eq] at portSame
      exact (Option.some.inj portSame).symm
    · rw [isMark, Option.isSome_some, Bool.true_and, bne_eq_false_iff_eq] at markSame
      exact (Option.some.inj markSame).symm

theorem scalars_unset
    (port : ∀ port, declared.listenPort = some port → device.listenPort = port)
    (mark : ∀ mark, declared.fwmark = some mark → device.fwmark = mark) :
    (declared.diffAgainst dump.read).listenPortSet = false ∧
      (declared.diffAgainst dump.read).fwmarkSet = false := by
  rw [DeclaredWgDevice.diffAgainst]
  refine ⟨?_, ?_⟩
  · cases isPort : declared.listenPort with
    | none => rfl
    | some wanted =>
        rw [Option.isSome_some, Bool.true_and, bne_eq_false_iff_eq, ← port wanted isPort]
        rfl
  · cases isMark : declared.fwmark with
    | none => rfl
    | some wanted =>
        rw [Option.isSome_some, Bool.true_and, bne_eq_false_iff_eq, ← mark wanted isMark]
        rfl

/-- The peers of a device that has converged: each declared one is found, and
no other. -/
structure Matches (declared : DeclaredWgDevice) (device : KernelDevice) : Prop where
  found : ∀ peer ∈ declared.peers, ∃ kernelPeer, device.lookup peer.publicKey = some kernelPeer
  only : ∀ key, key ∉ declared.peers.map (·.publicKey) → device.lookup key = none

theorem Matches.mem_iff (same : Matches declared device) (key : Key) :
    key ∈ device.peers.map (·.publicKey) ↔ key ∈ declared.peers.map (·.publicKey) := by
  constructor
  · intro present
    by_contra undeclared
    exact KernelDevice.lookup_eq_none_iff.mp (same.only key undeclared) present
  · intro listed
    obtain ⟨peer, mem, rfl⟩ := mem_map.mp listed
    obtain ⟨kernelPeer, found⟩ := same.found peer mem
    obtain ⟨kernelMem, isKey⟩ := KernelDevice.lookup_eq_some_iff.mp found
    exact isKey ▸ mem_map_of_mem kernelMem

theorem onlyKeys_iff (same : Matches declared device)
    (port : ∀ port, declared.listenPort = some port → device.listenPort = port)
    (mark : ∀ mark, declared.fwmark = some mark → device.fwmark = mark) :
    (declared.diffAgainst dump.read).OnlyKeys ↔ ∀ peer ∈ declared.peers, ∀ split,
        dump.lookup peer.publicKey = some split →
        (peer.diffAgainst split.read).endpointSet = false ∧
          (peer.diffAgainst split.read).persistentKeepaliveSet = false ∧
          (peer.diffAgainst split.read).allowedIpsSet = false := by
  obtain ⟨portUnset, markUnset⟩ := @scalars_unset declared device order dump port mark
  have exists_split : ∀ peer ∈ declared.peers, ∃ split,
      dump.lookup peer.publicKey = some split := by
    intro peer listed
    obtain ⟨kernelPeer, found⟩ := same.found peer listed
    rw [← dump.lookup_peer] at found
    exact (Option.map_eq_some_iff.mp found).imp fun split both => both.1
  constructor
  · intro only peer listed split found
    by_cases empty : (peer.diffAgainst split.read).isEmpty = true
    · simp only [PeerChanges.isEmpty, Bool.not_eq_true', Bool.or_eq_false_iff] at empty
      exact ⟨empty.1.1.2, empty.1.2, empty.2⟩
    · refine only.modified (peer.publicKey, peer.diffAgainst split.read) ?_
      rw [DeclaredWgDevice.diffAgainst, mem_filterMap]
      refine ⟨peer, listed, ?_⟩
      simp [dump.lookup_currKeys, found, empty]
  · intro unchanged
    refine ⟨portUnset, markUnset, ?_, fun modified member => ?_, ?_⟩
    · rw [DeclaredWgDevice.diffAgainst, filter_eq_nil_iff]
      intro peer listed
      obtain ⟨split, found⟩ := exists_split peer listed
      simp [dump.lookup_currKeys, found]
    · rw [DeclaredWgDevice.diffAgainst, mem_filterMap] at member
      obtain ⟨peer, listed, made⟩ := member
      obtain ⟨split, found⟩ := exists_split peer listed
      simp only [dump.lookup_currKeys, found, Option.map_some, Option.bind_eq_bind,
        Option.bind_some] at made
      split at made
      · cases made
      · cases made
        exact unchanged peer listed split found
    · refine eq_nil_iff_forall_not_mem.mpr fun key removed => ?_
      obtain ⟨present, undeclared⟩ := dump.mem_peersToRemove.mp removed
      exact undeclared ((same.mem_iff key).mp present)

/-- A device that was reconciled is in force, and is read without a difference
but of keys, exactly when its peers are declared in the kernel's form and the
next dump shows them. -/
theorem reconcile_representable_iff (distinct : (declared.peers.map (·.publicKey)).Nodup)
    (disjoint : declared.Disjoint) (stored : device.Stored)
    (next : Dump order (device.reconcile declared dump.read)) :
    DeviceInForce declared (device.reconcile declared dump.read) ∧
        (declared.diffAgainst next.read).OnlyKeys ↔
      ∀ peer ∈ declared.peers, Representable declared peer (dump.lookup peer.publicKey) ∧
        ∀ split, next.lookup peer.publicKey = some split → Shown peer split := by
  obtain ⟨port, mark⟩ := reconcile_scalars declared dump
  have settled := fun peer listed => @lookup_reconcile_declared declared
    peer order device dump distinct disjoint stored listed
  have same : Matches declared (device.reconcile declared dump.read) :=
    { found := fun peer listed => (settled peer listed).imp fun _ both => both.1
      only := fun key => lookup_reconcile_undeclared }
  have reconciledStored : (device.reconcile declared dump.read).Stored :=
    (stored.setDeclared _).setPeers _
  -- Every declared peer has its masks, so that no other peer has one of them.
  have own : ∀ peer ∈ declared.peers, ∀ kernelPeer,
      (device.reconcile declared dump.read).lookup peer.publicKey = some kernelPeer →
        ∀ ip ∈ kernelPeer.allowedIps, declared.Declares ip → ip ∈ peer.masks := by
    rintro peer listed kernelPeer found ip member ⟨other, otherListed, isMask⟩
    obtain ⟨otherPeer, otherFound, settles⟩ := settled other otherListed
    obtain ⟨isPeer, isKey⟩ := KernelDevice.lookup_eq_some_iff.mp found
    obtain ⟨isOther, otherKey⟩ := KernelDevice.lookup_eq_some_iff.mp otherFound
    have samePeer := reconciledStored.once kernelPeer isPeer otherPeer isOther ip member
      (settles.allowedIps.masks ip isMask)
    have sameKey : peer.publicKey = other.publicKey := by rw [← isKey, samePeer, otherKey]
    rwa [inj_on_of_nodup_map distinct listed otherListed sameKey]
  have peerwise : ∀ peer ∈ declared.peers, ∃ split,
      next.lookup peer.publicKey = some split ∧
        (device.reconcile declared dump.read).lookup peer.publicKey = some split.peer ∧
        ((InForce peer split.peer ∧ (peer.diffAgainst split.read).endpointSet = false ∧
            (peer.diffAgainst split.read).persistentKeepaliveSet = false ∧
            (peer.diffAgainst split.read).allowedIpsSet = false) ↔
          Representable declared peer (dump.lookup peer.publicKey) ∧ Shown peer split) := by
    intro peer listed
    obtain ⟨kernelPeer, found, settles⟩ := settled peer listed
    have isSplit := found
    rw [← next.lookup_peer] at isSplit
    obtain ⟨split, splitFound, rfl⟩ := Option.map_eq_some_iff.mp isSplit
    have kernelStored := reconciledStored.ips _ (KernelDevice.lookup_eq_some_iff.mp found).1
    exact ⟨split, splitFound, found,
      settled_iff_representable kernelStored settles (own peer listed _ found) listed⟩
  rw [onlyKeys_iff same port mark]
  constructor
  · rintro ⟨inForce, unchanged⟩ peer listed
    obtain ⟨split, splitFound, found, iff⟩ := peerwise peer listed
    obtain ⟨member, isKey⟩ := KernelDevice.lookup_eq_some_iff.mp found
    obtain ⟨representable, shown⟩ := iff.mp
      ⟨inForce.inForce peer listed _ member isKey, unchanged peer listed split splitFound⟩
    refine ⟨representable, fun other otherFound => ?_⟩
    rw [splitFound, Option.some.injEq] at otherFound
    exact otherFound ▸ shown
  · intro representable
    have each : ∀ peer ∈ declared.peers, ∀ split, next.lookup peer.publicKey = some split →
        InForce peer split.peer ∧ (peer.diffAgainst split.read).endpointSet = false ∧
          (peer.diffAgainst split.read).persistentKeepaliveSet = false ∧
          (peer.diffAgainst split.read).allowedIpsSet = false := by
      intro peer listed split found
      obtain ⟨other, otherFound, _, iff⟩ := peerwise peer listed
      rw [found, Option.some.injEq] at otherFound
      subst otherFound
      exact iff.mpr ⟨(representable peer listed).1, (representable peer listed).2 _ found⟩
    refine ⟨⟨same.mem_iff, port, mark, fun peer listed kernelPeer member isKey => ?_⟩,
      fun peer listed split found => (each peer listed split found).2⟩
    have found := KernelDevice.lookup_eq_some_iff.mpr ⟨member, isKey⟩
    rw [← next.lookup_peer] at found
    obtain ⟨split, splitFound, rfl⟩ := Option.map_eq_some_iff.mp found
    exact (each peer listed split splitFound).1

end Devices

/-- Names of devices are distinct, keys of the peers of a device are, and no
allowed IP is declared for two peers. -/
structure WireguardConfig.Valid (config : WireguardConfig) : Prop where
  names : (config.devices.map (·.ifname)).Nodup
  keys : ∀ declared ∈ config.devices, (declared.peers.map (·.publicKey)).Nodup
  disjoint : ∀ declared ∈ config.devices, declared.Disjoint

theorem WireguardConfig.onlyKeys_of_listed {order : ByteOrder} {dumps : Dumps order}
    {config : WireguardConfig} {kernel : Kernel} :
    (∀ modified ∈ config.devices.filterMap (entry dumps kernel), modified.2.OnlyKeys) ↔
      ∀ declared ∈ config.devices, ∀ device, kernel.device declared.ifname = some device →
          (declared.diffAgainst (dumps device).read).OnlyKeys := by
  constructor
  · intro listed declared member device found
    by_cases empty : (declared.diffAgainst (dumps device).read).isEmpty = true
    · simp only [DeviceChanges.isEmpty, DeviceChanges.hasDeviceLevelChange, Bool.and_eq_true,
        Bool.not_eq_true', Bool.or_eq_false_iff, List.isEmpty_iff] at empty
      obtain ⟨⟨⟨⟨⟨_, port⟩, mark⟩, added⟩, modified⟩, removed⟩ := empty
      refine ⟨port, mark, added, ?_, removed⟩
      rw [modified]
      exact fun _ => (absurd · not_mem_nil)
    · refine listed (declared.ifname, declared.diffAgainst (dumps device).read) ?_
      rw [mem_filterMap]
      refine ⟨declared, member, ?_⟩
      simp [entry, found, empty]
  · intro each modified member
    obtain ⟨declared, mem, made⟩ := mem_filterMap.mp member
    cases found : kernel.device declared.ifname with
    | none => simp [entry, found] at made
    | some device =>
        simp only [entry, found, Option.bind_eq_bind, Option.bind_some] at made
        split at made
        · cases made
        · cases made
          exact each declared mem device found

/-- A device without peers. -/
def bareDevice : KernelDevice where
  ifindex := 7
  ifname := "wg0"
  privateKey := Key.zero
  publicKey := Key.zero
  listenPort := 51820
  fwmark := 0
  peers := []
  nameEnds := splitDevice.nameEnds
  nameShort := splitDevice.nameShort
  distinct := nodup_nil

/-- A kernel whose only device has no peers. -/
def bareKernel : Kernel where
  device name := if name = "wg0" then some bareDevice else none
  named name found lookup := by
    split at lookup
    · rename_i same
      cases lookup
      exact same.symm
    · cases lookup

def onePeer (ip : AllowedIp) : DeclaredWgPeer where
  publicKey := { bytes := List.replicate 32 1, length_eq := rfl }
  presharedKey := none
  endpoint := some (.v4 0xcb007101 51820)
  persistentKeepalive := some (.fromSecs 25)
  allowedIps := [ip]

def oneDevice (ip : AllowedIp) : DeclaredWgDevice where
  ifname := "wg0"
  privateKey := none
  listenPort := some 51820
  fwmark := none
  peers := [onePeer ip]

theorem oneDevice_valid (ip : AllowedIp) :
    ({ devices := [oneDevice ip] } : WireguardConfig).Valid := by
  refine ⟨nodup_singleton _, ?_, ?_⟩
  · rintro _ ⟨⟩
    · exact nodup_singleton _
    · contradiction
  · rintro declared member peer listed other otherListed different
    obtain rfl := mem_singleton.mp member
    rw [mem_singleton.mp listed, mem_singleton.mp otherListed] at different
    exact absurd rfl different

theorem bareKernel_stored : bareKernel.Stored := by
  intro name device found
  have isBare : device = bareDevice := by
    simp only [bareKernel] at found
    split at found
    · exact (Option.some.inj found).symm
    · cases found
  rw [isBare]
  refine ⟨fun peer member => ?_, fun peer member => ?_⟩ <;> cases member

theorem bareKernel_present (ip : AllowedIp) : ∀ declared ∈ [oneDevice ip],
      ∃ device, bareKernel.device declared.ifname = some device := by
  intro declared member
  rw [mem_singleton.mp member]
  exact ⟨bareDevice, rfl⟩

/-- A successful apply to existing devices has converged exactly when every
peer is declared in the form in which the kernel keeps it, and is shown by the
next dump. -/
theorem apply_settles_iff (order : ByteOrder) (dumps next : Dumps order) (config : WireguardConfig)
    (valid : config.Valid) (kernel : Kernel) (stored : kernel.Stored)
    (present : ∀ declared ∈ config.devices, ∃ device, kernel.device declared.ifname = some device)
    (last : ApplyState) (run : config.apply order dumps kernel = .ok last) :
    Converged config next last.kernel ↔
      (∀ declared ∈ config.devices, ∀ device, kernel.device declared.ifname = some device →
          ∀ peer ∈ declared.peers,
            Representable declared peer ((dumps device).lookup peer.publicKey)) ∧
        ∀ declared ∈ config.devices, ∀ device, last.kernel.device declared.ifname = some device →
          ∀ peer ∈ declared.peers, ∀ split,
            (next device).lookup peer.publicKey = some split → Shown peer split := by
  have reconciled := WireguardConfig.apply_reconciles valid.names present run
  have still : ∀ declared ∈ config.devices,
      ∃ device, last.kernel.device declared.ifname = some device := by
    intro declared member
    obtain ⟨device, found⟩ := present declared member
    exact ⟨_, reconciled declared member device found⟩
  have devicewise := fun declared member device found =>
    @reconcile_representable_iff declared device order (dumps device)
      (valid.keys declared member) (valid.disjoint declared member)
      (stored declared.ifname device found)
      (next (device.reconcile declared (dumps device).read))
  have nextDiff := @WireguardConfig.diff_of_exists order last.kernel next config still
  constructor
  · rintro ⟨inForce, diff, isDiff, _, listed⟩
    rw [nextDiff, Except.ok.injEq] at isDiff
    subst isDiff
    have deviceInForce : ∀ declared ∈ config.devices, ∀ device,
        last.kernel.device declared.ifname = some device → DeviceInForce declared device := by
      intro declared member device found
      obtain ⟨other, otherFound, holds⟩ := inForce declared member
      rw [found, Option.some.injEq] at otherFound
      exact otherFound ▸ holds
    have onlyKeys := WireguardConfig.onlyKeys_of_listed.mp listed
    have each := fun declared member device found =>
      have after := reconciled declared member device found
      (devicewise declared member device found).mp
        ⟨deviceInForce declared member _ after, onlyKeys declared member _ after⟩
    refine ⟨fun declared member device found peer isPeer =>
      (each declared member device found peer isPeer).1, ?_⟩
    intro declared member device lastFound peer isPeer
    obtain ⟨before, found⟩ := present declared member
    rw [reconciled declared member before found, Option.some.injEq] at lastFound
    subst lastFound
    exact (each declared member before found peer isPeer).2
  · rintro ⟨representable, shown⟩
    have each := fun declared member device found =>
      (devicewise declared member device found).mpr fun peer isPeer =>
        ⟨representable declared member device found peer isPeer,
          shown declared member _ (reconciled declared member device found) peer isPeer⟩
    refine ⟨fun declared member => ?_, _, nextDiff, rfl, ?_⟩
    · obtain ⟨device, found⟩ := present declared member
      exact ⟨_, reconciled declared member device found, (each declared member device found).1⟩
    · refine WireguardConfig.onlyKeys_of_listed.mpr ?_
      intro declared member device lastFound
      obtain ⟨before, found⟩ := present declared member
      rw [reconciled declared member before found, Option.some.injEq] at lastFound
      subst lastFound
      exact (each declared member before found).2

/-- Dumps in which no two allowed IPs share a message. -/
def spread : Dumps .little :=
  KernelDevice.dump .little

/-- A peer with one allowed IP is shown. -/
theorem shown_spread {peer : DeclaredWgPeer} {device : KernelDevice} {split : SplitPeer}
    (single : ∀ peer ∈ device.peers, peer.allowedIps.length ≤ 1)
    (found : (spread device).lookup peer.publicKey = some split) : Shown peer split := by
  obtain ⟨kernelPeer, member, rfl⟩ := mem_map.mp (mem_of_lookupBy found).1
  have alone : kernelPeer.split.continued = [] :=
    map_eq_nil_iff.mpr (drop_eq_nil_of_le (single kernelPeer member))
  refine ⟨?_, .inl alone⟩
  rw [SplitPeer.read_of_alone alone]
  rfl

/-- A peer whose allowed IP is masked converges. -/
theorem apply_settles_masked : ∃ last,
      ({ devices := [oneDevice { addr := .v4 0x0a000000, cidr := 24 }] } :
          WireguardConfig).apply .little spread bareKernel = .ok last ∧
        Converged { devices := [oneDevice { addr := .v4 0x0a000000, cidr := 24 }] }
          spread last.kernel := by
  have succeeds :
      (({ devices := [oneDevice { addr := .v4 0x0a000000, cidr := 24 }] } :
          WireguardConfig).apply .little spread bareKernel).isOk = true := by
    decide +kernel
  obtain ⟨last, run⟩ := exists_of_isOk succeeds
  refine ⟨last, run, (apply_settles_iff .little spread spread _ (oneDevice_valid _)
    bareKernel bareKernel_stored (bareKernel_present _) last run).mpr ⟨?_, ?_⟩⟩
  · intro declared member device found peer listed
    obtain rfl := mem_singleton.mp member
    obtain rfl := mem_singleton.mp listed
    obtain rfl : bareDevice = device := Option.some.inj found
    refine ⟨⟨nodup_singleton _, fun ip mem => ?_⟩, ?_, ?_, ?_, ?_⟩
    · rw [mem_singleton.mp mem]
      decide
    · rintro ip port flowinfo scopeId ⟨⟩
    · rintro duration ⟨⟩
      decide
    · rintro split address ⟨⟩
    · rintro split ⟨⟩
  · intro declared member device found peer listed split isSplit
    obtain rfl := mem_singleton.mp member
    rw [WireguardConfig.apply_reconciles (oneDevice_valid _).names (bareKernel_present _) run _
      mem_cons_self bareDevice rfl, Option.some.injEq] at found
    subst found
    exact shown_spread (by decide +kernel) isSplit

/-- A peer whose allowed IP is not masked never converges. -/
theorem apply_unsettled_unmasked : ∃ last,
      ({ devices := [oneDevice { addr := .v4 0x0a000005, cidr := 24 }] } :
          WireguardConfig).apply .little spread bareKernel = .ok last ∧
        ({ devices := [oneDevice { addr := .v4 0x0a000005, cidr := 24 }] } :
          WireguardConfig).Valid ∧ bareKernel.Stored ∧
        ¬ Converged { devices := [oneDevice { addr := .v4 0x0a000005, cidr := 24 }] }
          spread last.kernel := by
  have succeeds :
      (({ devices := [oneDevice { addr := .v4 0x0a000005, cidr := 24 }] } :
          WireguardConfig).apply .little spread bareKernel).isOk = true := by
    decide +kernel
  obtain ⟨last, run⟩ := exists_of_isOk succeeds
  have valid := oneDevice_valid { addr := .v4 0x0a000005, cidr := 24 }
  have bareStored : bareDevice.Stored := bareKernel_stored "wg0" _ rfl
  refine ⟨last, run, valid, bareKernel_stored, ?_⟩
  rintro ⟨inForce, diff, isDiff, _, listed⟩
  have reconciled := WireguardConfig.apply_reconciles valid.names
    (bareKernel_present _) run _ mem_cons_self bareDevice rfl
  have still : ∀ declared ∈ [oneDevice { addr := .v4 0x0a000005, cidr := 24 }],
      ∃ device, last.kernel.device declared.ifname = some device := by
    intro declared member
    rw [mem_singleton.mp member]
    exact ⟨_, reconciled⟩
  rw [WireguardConfig.diff_of_exists still, Except.ok.injEq] at isDiff
  subst isDiff
  have onlyKeys := WireguardConfig.onlyKeys_of_listed.mp listed _ mem_cons_self _ reconciled
  obtain ⟨device, found, holds⟩ := inForce _ mem_cons_self
  rw [reconciled, Option.some.injEq] at found
  subst found
  have representable := ((reconcile_representable_iff
    (valid.keys _ mem_cons_self) (valid.disjoint _ mem_cons_self)
    bareStored (spread _)).mp ⟨holds, onlyKeys⟩ _ mem_cons_self).1
  have masked := representable.allowedIps.2 _ mem_cons_self
  exact absurd masked (by decide)

end Nlink.Wireguard
