import Nlink.WireguardRequests

namespace Nlink.Wireguard

open Foundation Netlink Network Nftables List

/-!
# When an apply converges

After a successful apply the peers of a device are the declared ones, and what
was declared is in force.  The difference from what is then read may still list
changes: a declaration that the kernel keeps in another form is seen as a
change each time.
-/

section Stored

/-- Allowed IPs as the kernel keeps them: masked, and once each. -/
def StoredIps (ips : List AllowedIp) : Prop :=
  ips.Nodup ∧ ∀ ip ∈ ips, ip.masked = ip

/-- The allowed IPs of every peer are as the kernel keeps them, and none is of
two peers. -/
structure KernelDevice.Stored (device : KernelDevice) : Prop where
  ips : ∀ peer ∈ device.peers, StoredIps peer.allowedIps
  once : ∀ peer ∈ device.peers, ∀ other ∈ device.peers, ∀ ip ∈ peer.allowedIps,
    ip ∈ other.allowedIps → peer = other

def Kernel.Stored (kernel : Kernel) : Prop :=
  ∀ name device, kernel.device name = some device → device.Stored

theorem maskBits_maskBits {width : Nat} (bits : BitVec width) (cidr : UInt8) :
    maskBits width (maskBits width bits cidr) cidr = maskBits width bits cidr := by
  rw [maskBits, maskBits, BitVec.and_assoc, BitVec.and_self]

theorem masked_masked (ip : AllowedIp) : ip.masked.masked = ip.masked := by
  rcases ip with ⟨bits | bits, cidr⟩ <;>
    simp [AllowedIp.masked, maskBits_maskBits]

theorem StoredIps.insertIp {ips : List AllowedIp} (stored : StoredIps ips) (ip : AllowedIp) :
    StoredIps (KernelPeer.insertIp ips ip) := by
  obtain ⟨once, masked⟩ := stored
  refine ⟨?_, ?_⟩
  · refine (once.filter _).append (nodup_singleton _) ?_
    rw [disjoint_singleton, mem_filter]
    simp
  · intro other mem
    rcases mem_append.mp mem with mem | mem
    · exact masked other (mem_of_mem_filter mem)
    · rw [mem_singleton.mp mem, masked_masked]

theorem StoredIps.foldl_insertIp {ips : List AllowedIp} (stored : StoredIps ips)
    (added : List AllowedIp) : StoredIps (added.foldl KernelPeer.insertIp ips) := by
  induction added generalizing ips with
  | nil => exact stored
  | cons ip rest ih => exact ih (stored.insertIp ip)

theorem mem_foldl_insertIp {ip : AllowedIp} (added ips : List AllowedIp) :
    ip ∈ added.foldl KernelPeer.insertIp ips ↔ ip ∈ ips ∨ ip ∈ added.map (·.masked) := by
  induction added generalizing ips with
  | nil => simp
  | cons first rest ih =>
      rw [foldl_cons, ih, KernelPeer.insertIp, mem_append, mem_filter,
        mem_singleton, map_cons, mem_cons, decide_eq_true_iff]
      constructor
      · rintro ((⟨old, _⟩ | new) | later)
        · exact .inl old
        · exact .inr (.inl new)
        · exact .inr (.inr later)
      · rintro (old | new | later)
        · by_cases same : ip = first.masked
          · exact .inl (.inr same)
          · exact .inl (.inl ⟨old, same⟩)
        · exact .inl (.inr new)
        · exact .inr later

theorem mem_merge {peer : KernelPeer} {request : PeerRequest} {ip : AllowedIp}
    (member : ip ∈ (peer.merge request).allowedIps) :
    ip ∈ peer.allowedIps ∨ ip ∈ request.allowedIps.map (·.masked) := by
  rw [KernelPeer.merge, mem_foldl_insertIp] at member
  refine member.imp_left fun old => ?_
  split at old
  · exact old
  · cases old

theorem StoredIps.merge {peer : KernelPeer} (stored : StoredIps peer.allowedIps)
    (request : PeerRequest) : StoredIps (peer.merge request).allowedIps := by
  refine StoredIps.foldl_insertIp ?_ _
  split
  · exact stored
  · exact ⟨nodup_nil, fun _ => (absurd · not_mem_nil)⟩

theorem StoredIps.yield {peer : KernelPeer} (stored : StoredIps peer.allowedIps)
    (ips : List AllowedIp) : StoredIps (peer.yield ips).allowedIps :=
  ⟨stored.1.filter _, fun ip mem => stored.2 ip (mem_of_mem_filter mem)⟩

/-- A peer after a request was merged with it, or was there and has yielded. -/
theorem KernelDevice.of_mem_setPeer {device : KernelDevice} {key : Key} {request : PeerRequest}
    (kept : request.flags &&& WgPeerFlags.RemoveMe = 0) {peer : KernelPeer}
    (member : peer ∈ (device.setPeer key request).peers) :
    (peer = ((device.lookup key).getD (.new key)).merge request) ∨
      ∃ before ∈ device.peers, before.publicKey ≠ key ∧
        peer = before.yield request.allowedIps := by
  have found := KernelDevice.lookup_eq_some_iff.mpr ⟨member, rfl⟩
  rw [KernelDevice.lookup_setPeer kept] at found
  split at found
  · exact .inl (Option.some.inj found).symm
  · rename_i different
    obtain ⟨before, isBefore, rfl⟩ := Option.map_eq_some_iff.mp found
    exact .inr ⟨before, (KernelDevice.lookup_eq_some_iff.mp isBefore).1, different, rfl⟩

namespace KernelDevice.Stored

variable {device : KernelDevice} (stored : device.Stored)

include stored

theorem merged (key : Key) : StoredIps ((device.lookup key).getD (.new key)).allowedIps := by
  cases found : device.lookup key with
  | none => exact ⟨nodup_nil, fun _ => (absurd · not_mem_nil)⟩
  | some peer => exact stored.ips peer (KernelDevice.lookup_eq_some_iff.mp found).1

/-- What is merged into a peer is of no peer that yields it. -/
theorem merged_once {key : Key} {request : PeerRequest} {before : KernelPeer}
    (isPeer : before ∈ device.peers) (different : before.publicKey ≠ key) {ip : AllowedIp}
    (member : ip ∈ (((device.lookup key).getD (.new key)).merge request).allowedIps) :
    ip ∉ (before.yield request.allowedIps).allowedIps := by
  intro yielded
  obtain ⟨old, kept⟩ := mem_filter.mp yielded
  rcases mem_merge member with same | new
  · cases found : device.lookup key with
    | none =>
        rw [found] at same
        cases same
    | some peer =>
        rw [found] at same
        obtain ⟨isFound, rfl⟩ := KernelDevice.lookup_eq_some_iff.mp found
        exact different (congrArg _ (stored.once before isPeer peer isFound ip old same))
  · exact of_decide_eq_true kept new

theorem setPeer (key : Key) (request : PeerRequest) : (device.setPeer key request).Stored := by
  by_cases kept : request.flags &&& WgPeerFlags.RemoveMe = 0
  · refine ⟨fun peer member => ?_, fun peer member other otherMember ip isIp isOther => ?_⟩
    · rcases KernelDevice.of_mem_setPeer kept member with rfl | ⟨before, isPeer, _, rfl⟩
      · exact (stored.merged key).merge request
      · exact (stored.ips before isPeer).yield _
    · rcases KernelDevice.of_mem_setPeer kept member with rfl | ⟨before, isPeer, different, rfl⟩ <;>
        rcases KernelDevice.of_mem_setPeer kept otherMember with
          rfl | ⟨last, isLast, lastDifferent, rfl⟩
      · rfl
      · exact absurd isOther (stored.merged_once isLast lastDifferent isIp)
      · exact absurd isIp (stored.merged_once isPeer different isOther)
      · rw [stored.once before isPeer last isLast ip (mem_of_mem_filter isIp)
          (mem_of_mem_filter isOther)]
  · rw [KernelDevice.setPeer, if_neg kept]
    exact ⟨fun peer member => stored.ips peer (mem_of_mem_filter member),
      fun peer member other otherMember => stored.once peer (mem_of_mem_filter member)
        other (mem_of_mem_filter otherMember)⟩

theorem setPeers (builders : List WgPeerBuilder) : (device.setPeers builders).Stored := by
  induction builders generalizing device with
  | nil => exact stored
  | cons builder rest ih => exact ih (stored.setPeer builder.publicKey _)

end KernelDevice.Stored

end Stored

section Differences

theorem sortKey_injective : Function.Injective AllowedIp.sortKey := by
  rintro ⟨bits | bits, cidr⟩ ⟨others | others, other⟩ same
  all_goals
    have cidrBound := cidr.toNat_lt
    have otherBound := other.toNat_lt
    have bitsBound := bits.isLt
    have othersBound := others.isLt
    simp only [AllowedIp.sortKey] at same
  · have bitsSame : bits.toNat = others.toNat := by omega
    have cidrSame : cidr.toNat = other.toNat := by omega
    rw [BitVec.eq_of_toNat_eq bitsSame, UInt8.toNat_inj.mp cidrSame]
  · omega
  · omega
  · have bitsSame : bits.toNat = others.toNat := by omega
    have cidrSame : cidr.toNat = other.toNat := by omega
    rw [BitVec.eq_of_toNat_eq bitsSame, UInt8.toNat_inj.mp cidrSame]

variable {peer : DeclaredWgPeer} {current : WgPeer}

theorem allowedIpsSet_eq_false_iff : (peer.diffAgainst current).allowedIpsSet = false ↔
      peer.allowedIps.Perm current.allowedIps := by
  rw [← sortByKey_eq_iff_perm sortKey_injective]
  exact bne_eq_false_iff_eq

theorem endpointSet_eq_false_iff : (peer.diffAgainst current).endpointSet = false ↔
      ∀ address, peer.endpoint = some address → current.endpoint = some address := by
  rw [DeclaredWgPeer.diffAgainst]
  cases peer.endpoint with
  | none => simp
  | some address =>
      rw [Option.isSome_some, Bool.true_and, bne_eq_false_iff_eq]
      constructor
      · rintro same _ ⟨⟩
        exact same.symm
      · intro same
        exact (same address rfl).symm

theorem persistentKeepaliveSet_eq_false_iff :
    (peer.diffAgainst current).persistentKeepaliveSet = false ↔
      ∀ duration, peer.persistentKeepalive = some duration →
        current.persistentKeepalive = some duration.wantSecs := by
  rw [DeclaredWgPeer.diffAgainst]
  cases peer.persistentKeepalive with
  | none => simp
  | some duration =>
      rw [Option.isSome_some, Bool.true_and, bne_eq_false_iff_eq]
      constructor
      · rintro same _ ⟨⟩
        exact same.symm
      · intro same
        exact (same duration rfl).symm

/-- The declared allowed IPs as the kernel keeps them. -/
def DeclaredWgPeer.masks (peer : DeclaredWgPeer) : List AllowedIp :=
  peer.allowedIps.map (·.masked)

/-- The last entry of a peer lists some of its allowed IPs. -/
theorem SplitPeer.read_allowedIps_sublist (split : SplitPeer) :
    split.read.allowedIps.Sublist split.peer.allowedIps := by
  rw [SplitPeer.read, ← split.whole]
  cases last : split.continued.getLast? with
  | none => exact sublist_append_left _ _
  | some ips =>
      exact (sublist_flatten_of_mem (mem_of_getLast? last)).trans (sublist_append_right _ _)

/-- A peer that is not continued is read as a whole. -/
theorem SplitPeer.read_of_alone {split : SplitPeer} (alone : split.continued = []) :
    split.read = split.peer.read := by
  rw [SplitPeer.read, alone, split.begun_of_alone alone]
  rfl

/-- Of a continued peer neither endpoint nor keepalive is read. -/
theorem SplitPeer.read_of_continued {split : SplitPeer} (continues : split.continued ≠ []) :
    split.read.endpoint = none ∧ split.read.persistentKeepalive = none := by
  rw [SplitPeer.read]
  cases last : split.continued.getLast? with
  | none => exact absurd (getLast?_eq_none_iff.mp last) continues
  | some ips => exact ⟨rfl, rfl⟩

theorem SplitPeer.keepalive_of_read {split : SplitPeer} {interval : BitVec 16}
    (read : split.read.persistentKeepalive = some interval) :
    split.peer.persistentKeepalive = interval := by
  by_cases alone : split.continued = []
  · rw [split.read_of_alone alone] at read
    exact Option.some.inj read
  · rw [(split.read_of_continued alone).2] at read
    cases read

/-- Allowed IPs that are read without a difference are masked and are the
kernel's. -/
theorem masks_of_unset {split : SplitPeer} (stored : StoredIps split.peer.allowedIps)
    (unset : (peer.diffAgainst split.read).allowedIpsSet = false) :
    ∀ ip ∈ peer.masks, ip ∈ split.peer.allowedIps := by
  have perm : peer.allowedIps.Perm split.read.allowedIps := allowedIpsSet_eq_false_iff.mp unset
  intro ip member
  obtain ⟨declared, isDeclared, rfl⟩ := mem_map.mp member
  have known := split.read_allowedIps_sublist.subset (perm.mem_iff.mp isDeclared)
  rwa [stored.2 declared known]

theorem perm_iff_of_stored {ips : List AllowedIp} (stored : StoredIps ips)
    (same : ∀ ip, ip ∈ ips ↔ ip ∈ peer.masks) :
    peer.allowedIps.Perm ips ↔ StoredIps peer.allowedIps := by
  constructor
  · intro perm
    exact ⟨perm.nodup_iff.mpr stored.1, fun ip mem => stored.2 ip (perm.mem_iff.mp mem)⟩
  · rintro ⟨once, masked⟩
    rw [perm_ext_iff_of_nodup once stored.1]
    intro ip
    rw [same, DeclaredWgPeer.masks, mem_map]
    constructor
    · intro mem
      exact ⟨ip, mem, masked ip mem⟩
    · rintro ⟨other, mem, rfl⟩
      rwa [masked other mem]

end Differences

section Settling

/-- No allowed IP is declared for two peers, after masking. -/
def DeclaredWgDevice.Disjoint (declared : DeclaredWgDevice) : Prop :=
  ∀ peer ∈ declared.peers, ∀ other ∈ declared.peers,
    peer.publicKey ≠ other.publicKey → ∀ ip ∈ peer.masks, ip ∉ other.masks

/-- An allowed IP is declared for some peer. -/
def DeclaredWgDevice.Declares (declared : DeclaredWgDevice) (ip : AllowedIp) : Prop :=
  ∃ peer ∈ declared.peers, ip ∈ peer.masks

/-- The endpoint that a peer ends with: the declared one, unless the kernel's
was read as that. -/
def DeclaredWgPeer.settledEndpoint (peer : DeclaredWgPeer) (current : Option SplitPeer) :
    Option SocketAddr :=
  match current with
  | some split =>
      if (peer.diffAgainst split.read).endpointSet then peer.endpoint else split.peer.endpoint
  | none => peer.endpoint

/-- The allowed IPs of the kernel's peer, unless its request replaces them. -/
def DeclaredWgPeer.kept (peer : DeclaredWgPeer) (current : Option SplitPeer) : List AllowedIp :=
  match current with
  | some split => if (peer.diffAgainst split.read).allowedIpsSet then [] else split.peer.allowedIps
  | none => []

/-- Allowed IPs that are set by a request for another peer. -/
def Foreign (declared : DeclaredWgDevice) (peer : DeclaredWgPeer) (ips : List AllowedIp) : Prop :=
  ∀ ip ∈ ips.map (·.masked), ip ∉ peer.masks ∧ declared.Declares ip

/-- The allowed IPs of a declared peer are the declared ones and some of those
that are kept; what is declared for no peer is not lost. -/
structure Keeps (declared : DeclaredWgDevice) (peer : DeclaredWgPeer)
    (kept ips : List AllowedIp) : Prop where
  masks : ∀ ip ∈ peer.masks, ip ∈ ips
  only : ∀ ip ∈ ips, ip ∈ peer.masks ∨ ip ∈ kept
  keeps : ∀ ip ∈ kept, ¬ declared.Declares ip → ip ∈ ips

/-- A declared peer after its request. -/
structure Settles (declared : DeclaredWgDevice) (peer : DeclaredWgPeer)
    (current : Option SplitPeer) (kernelPeer : KernelPeer) : Prop where
  endpoint_eq : kernelPeer.endpoint = peer.settledEndpoint current
  keepalive : ∀ duration, peer.persistentKeepalive = some duration →
    kernelPeer.persistentKeepalive = duration.wantSecs
  allowedIps : Keeps declared peer (peer.kept current) kernelPeer.allowedIps

/-- A declared peer of the kernel before its request. -/
structure Waits (declared : DeclaredWgDevice) (peer : DeclaredWgPeer) (current : SplitPeer)
    (kernelPeer : KernelPeer) : Prop where
  endpoint_eq : kernelPeer.endpoint = current.peer.endpoint
  keepalive_eq : kernelPeer.persistentKeepalive = current.peer.persistentKeepalive
  allowedIps : (peer.diffAgainst current.read).allowedIpsSet = false →
    Keeps declared peer (peer.kept (some current)) kernelPeer.allowedIps

variable {declared : DeclaredWgDevice}

theorem Keeps.yield {peer : DeclaredWgPeer} {kept ips : List AllowedIp} {kernelPeer : KernelPeer}
    (keeps : Keeps declared peer kept kernelPeer.allowedIps) (foreign : Foreign declared peer ips) :
    Keeps declared peer kept (kernelPeer.yield ips).allowedIps where
  masks ip member :=
    mem_filter.mpr ⟨keeps.masks ip member, decide_eq_true fun taken => (foreign ip taken).1 member⟩
  only ip member := keeps.only ip (mem_of_mem_filter member)
  keeps ip member undeclared :=
    mem_filter.mpr ⟨keeps.keeps ip member undeclared,
      decide_eq_true fun taken => undeclared (foreign ip taken).2⟩

/-- Before its request, a peer whose allowed IPs are read without a difference
keeps them. -/
theorem keeps_of_unset {peer : DeclaredWgPeer} {current : SplitPeer}
    (stored : StoredIps current.peer.allowedIps)
    (unset : (peer.diffAgainst current.read).allowedIpsSet = false) :
    Keeps declared peer (peer.kept (some current)) current.peer.allowedIps := by
  rw [DeclaredWgPeer.kept, unset]
  exact
    { masks := masks_of_unset stored unset
      only := fun ip member => .inr member
      keeps := fun ip member _ => member }

variable {peer : DeclaredWgPeer}

theorem replaces : ¬ WgPeerFlags.ReplaceAllowedIps &&& WgPeerFlags.ReplaceAllowedIps = 0 := by
  decide

theorem settles_addition (publicKey : Key) : Settles declared peer none
      ((KernelPeer.new publicKey).merge (peer.applyToBuilder (.new peer.publicKey)).request) where
  endpoint_eq := by
    cases endpoint : peer.endpoint <;>
      simp [DeclaredWgPeer.settledEndpoint, KernelPeer.merge, WgPeerBuilder.request, KernelPeer.new,
        DeclaredWgPeer.applyToBuilder, WgPeerBuilder.replaceAllowedIps, WgPeerBuilder.new, endpoint]
  keepalive duration declared := by
    simp [KernelPeer.merge, WgPeerBuilder.request,
      DeclaredWgPeer.applyToBuilder, WgPeerBuilder.replaceAllowedIps, declared]
  allowedIps := by
    have flags : (peer.applyToBuilder (.new peer.publicKey)).request.flags =
          WgPeerFlags.ReplaceAllowedIps :=
      BitVec.zero_or
    have set : ∀ ip, ip ∈ ((KernelPeer.new publicKey).merge
        (peer.applyToBuilder (.new peer.publicKey)).request).allowedIps ↔ ip ∈ peer.masks := by
      intro ip
      rw [KernelPeer.merge, mem_foldl_insertIp, flags, if_neg replaces]
      exact or_iff_right not_mem_nil
    exact
      { masks := fun ip => (set ip).mpr
        only := fun ip member => .inl ((set ip).mp member)
        keeps := fun ip member => nomatch member }

theorem Waits.settles {current : SplitPeer} {kernelPeer : KernelPeer}
    (waits : Waits declared peer current kernelPeer) :
    Settles declared peer (some current)
      (kernelPeer.merge (peer.applyChangesToBuilder (.new peer.publicKey)
          (peer.diffAgainst current.read)).request) := by
  obtain ⟨endpointWritten, keepaliveWritten⟩ :=
    peer.applyChangesToBuilder_scalars (peer.diffAgainst current.read)
  obtain ⟨_, ipsWritten, flagsWritten⟩ :=
    peer.applyChangesToBuilder_fields (peer.diffAgainst current.read)
  refine ⟨?_, fun duration isDuration => ?_, ?_⟩
  · rw [KernelPeer.merge, WgPeerBuilder.request, endpointWritten,
      DeclaredWgPeer.settledEndpoint, waits.endpoint_eq]
    by_cases set : (peer.diffAgainst current.read).endpointSet = true
    · obtain ⟨address, isAddress⟩ : ∃ address, peer.endpoint = some address := by
        simp only [DeclaredWgPeer.diffAgainst, Bool.and_eq_true] at set
        exact Option.isSome_iff_exists.mp set.1
      simp [set, isAddress]
    · simp [set]
  · rw [KernelPeer.merge, WgPeerBuilder.request, keepaliveWritten, isDuration, waits.keepalive_eq]
    cases set : (peer.diffAgainst current.read).persistentKeepaliveSet with
    | true => rfl
    | false =>
        have same := persistentKeepaliveSet_eq_false_iff.mp set duration isDuration
        exact SplitPeer.keepalive_of_read same
  · rw [KernelPeer.merge, WgPeerBuilder.request, ipsWritten, flagsWritten]
    cases set : (peer.diffAgainst current.read).allowedIpsSet with
    | true =>
        have written : ∀ ip, ip ∈ peer.allowedIps.foldl KernelPeer.insertIp [] ↔
            ip ∈ peer.masks := by
          intro ip
          rw [mem_foldl_insertIp]
          exact or_iff_right not_mem_nil
        simp only [if_true, replaces, if_false, DeclaredWgPeer.kept, set]
        exact
          { masks := fun ip => (written ip).mpr
            only := fun ip member => .inl ((written ip).mp member)
            keeps := fun ip member => nomatch member }
    | false =>
        have kept : (0 : BitVec 32) &&& WgPeerFlags.ReplaceAllowedIps = 0 := by decide
        simp only [Bool.false_eq_true, if_false, kept, if_true, foldl_nil]
        exact waits.allowedIps set

/-- A write for another peer sets allowed IPs that are foreign to a peer. -/
theorem foreign_of_mem_writes (disjoint : declared.Disjoint) (listed : peer ∈ declared.peers)
    {current : WgDevice} {builder : WgPeerBuilder}
    (member : builder ∈ declared.writes (declared.diffAgainst current))
    (different : builder.publicKey ≠ peer.publicKey) :
    Foreign declared peer builder.allowedIps := by
  obtain ⟨other, otherListed, sameKey, none | ips⟩ := DeclaredWgDevice.of_mem_writes member
  · rw [none]
    exact fun ip => (absurd · not_mem_nil)
  · rw [ips]
    refine fun ip isIp => ⟨fun isMask => ?_, other, otherListed, isIp⟩
    exact disjoint peer listed other otherListed
      (fun same => different (sameKey.symm.trans same.symm)) ip isMask isIp

variable {ips : List AllowedIp} {split : SplitPeer}

theorem settles_of_isEmpty (stored : StoredIps split.peer.allowedIps)
    (same : (peer.diffAgainst split.read).isEmpty = true) :
    Settles declared peer (some split) split.peer := by
  simp only [PeerChanges.isEmpty, Bool.not_eq_true', Bool.or_eq_false_iff] at same
  obtain ⟨⟨⟨_, endpoint⟩, keepalive⟩, ips⟩ := same
  refine ⟨?_, fun duration isDuration => ?_, keeps_of_unset stored ips⟩
  · rw [DeclaredWgPeer.settledEndpoint, endpoint]
    rfl
  · exact SplitPeer.keepalive_of_read
      (persistentKeepaliveSet_eq_false_iff.mp keepalive duration isDuration)

/-- The peer that was found is settled. -/
def Settled (declared : DeclaredWgDevice) (peer : DeclaredWgPeer) (current : Option SplitPeer)
    (found : Option KernelPeer) : Prop :=
  ∃ kernelPeer, found = some kernelPeer ∧ Settles declared peer current kernelPeer

theorem Settled.yield {current : Option SplitPeer} {found : Option KernelPeer}
    (settled : Settled declared peer current found) (foreign : Foreign declared peer ips) :
    Settled declared peer current (found.map (·.yield ips)) := by
  obtain ⟨kernelPeer, rfl, settles⟩ := settled
  exact ⟨_, rfl, settles.endpoint_eq, settles.keepalive, settles.allowedIps.yield foreign⟩

/-- The peer that was found waits for its request. -/
def Waiting (declared : DeclaredWgDevice) (peer : DeclaredWgPeer) (current : SplitPeer)
    (found : Option KernelPeer) : Prop :=
  ∃ kernelPeer, found = some kernelPeer ∧ Waits declared peer current kernelPeer

theorem Waiting.yield {found : Option KernelPeer} (waiting : Waiting declared peer split found)
    (foreign : Foreign declared peer ips) :
    Waiting declared peer split (found.map (·.yield ips)) := by
  obtain ⟨kernelPeer, rfl, waits⟩ := waiting
  exact ⟨_, rfl, waits.endpoint_eq, waits.keepalive_eq,
    fun unset => (waits.allowedIps unset).yield foreign⟩

theorem modification_kept {changes : PeerChanges} :
    (peer.applyChangesToBuilder (.new peer.publicKey) changes).request.flags &&&
        WgPeerFlags.RemoveMe = 0 := by
  obtain ⟨_, _, flags⟩ := peer.applyChangesToBuilder_fields changes
  have written : (peer.applyChangesToBuilder (.new peer.publicKey) changes).request.flags =
        if changes.allowedIpsSet then WgPeerFlags.ReplaceAllowedIps else 0 :=
    flags
  rw [written]
  cases changes.allowedIpsSet <;> decide

variable {order : ByteOrder} {device : KernelDevice} {dump : Dump order device}

theorem unnamed_of_isEmpty (distinct : (declared.peers.map (·.publicKey)).Nodup)
    (listed : peer ∈ declared.peers) (found : dump.lookup peer.publicKey = some split)
    (same : (peer.diffAgainst split.read).isEmpty = true) {builder : WgPeerBuilder}
    (member : builder ∈ declared.writes (declared.diffAgainst dump.read)) :
    builder.publicKey ≠ peer.publicKey := by
  intro named
  have only : ∀ other ∈ declared.peers, other.publicKey = builder.publicKey → other = peer := by
    intro other otherListed key
    exact inj_on_of_nodup_map distinct otherListed listed (key.trans named)
  rcases (DeclaredWgDevice.mem_writes_iff distinct).mp member with
    ⟨other, otherListed, made⟩ | ⟨other, otherListed, made⟩
  · obtain rfl := only other otherListed (DeclaredWgPeer.publicKey_of_addition made).symm
    rw [(DeclaredWgPeer.eq_of_addition made).1] at found
    cases found
  · obtain rfl := only other otherListed (DeclaredWgPeer.publicKey_of_modification made).symm
    obtain ⟨other, otherFound, changed, _⟩ := DeclaredWgPeer.exists_of_modification made
    rw [found, Option.some.injEq] at otherFound
    rw [otherFound, changed] at same
    cases same

theorem setDeclared_peers (device : KernelDevice) (declared : DeclaredWgDevice)
    (changes : DeviceChanges) : (device.setDeclared declared changes).peers = device.peers := by
  have flags : ((WireguardConfig.scalarBuilder declared).request device.ifname).flags =
        0 :=
    rfl
  rw [KernelDevice.setDeclared]
  split
  · refine if_pos ?_
    rw [flags]
    exact BitVec.zero_and
  · rfl

theorem lookup_setDeclared (device : KernelDevice) (declared : DeclaredWgDevice)
    (changes : DeviceChanges) (key : Key) :
    (device.setDeclared declared changes).lookup key = device.lookup key := by
  rw [KernelDevice.lookup, setDeclared_peers]
  rfl

theorem KernelDevice.Stored.setDeclared (stored : device.Stored) (changes : DeviceChanges) :
    (device.setDeclared declared changes).Stored := by
  obtain ⟨ips, once⟩ := stored
  rw [← setDeclared_peers device declared changes] at ips once
  exact ⟨ips, once⟩

/-- The peers after an apply: those that are not declared are removed, the
others are what the writes make them. -/
theorem lookup_reconcile (key : Key) :
    (device.reconcile declared dump.read).lookup key =
      if key ∈ device.peers.map (·.publicKey) ∧ key ∉ declared.peers.map (·.publicKey) then
        none
      else
        ((device.setDeclared declared (declared.diffAgainst dump.read)).setPeers
          (declared.writes (declared.diffAgainst dump.read))).lookup key := by
  rw [KernelDevice.reconcile, DeclaredWgDevice.requests, KernelDevice.setPeers_append,
    lookup_setPeers_removals]
  exact if_congr dump.mem_peersToRemove rfl rfl

section

variable (distinct : (declared.peers.map (·.publicKey)).Nodup) (disjoint : declared.Disjoint)

include distinct disjoint

/-- Every declared peer is settled after the apply. -/
theorem lookup_reconcile_declared (stored : device.Stored) (listed : peer ∈ declared.peers) :
    Settled declared peer (dump.lookup peer.publicKey)
      ((device.reconcile declared dump.read).lookup peer.publicKey) := by
  have unique := @DeclaredWgDevice.nodup_writes _ _ dump declared distinct
  have foreign : ∀ builder ∈ declared.writes (declared.diffAgainst dump.read),
      builder.publicKey ≠ peer.publicKey → Foreign declared peer builder.allowedIps :=
    fun builder => foreign_of_mem_writes disjoint listed
  have start := lookup_setDeclared device declared (declared.diffAgainst dump.read) peer.publicKey
  rw [lookup_reconcile, if_neg fun removed => removed.2 (mem_map_of_mem listed)]
  rw [← dump.lookup_peer] at start
  cases current : dump.lookup peer.publicKey with
  | none =>
      rw [current] at start
      have addition : peer.addition dump = some (peer.applyToBuilder (.new peer.publicKey)) := by
        rw [DeclaredWgPeer.addition, current]
        rfl
      have member := (DeclaredWgDevice.mem_writes_iff distinct).mpr (.inl ⟨peer, listed, addition⟩)
      refine KernelDevice.lookup_setPeers_of_named (· = none)
        (Settled declared peer none) unique member rfl
        (fun other mem different found => ⟨?_, ?_⟩) (fun before absent => ?_) start
      · rintro rfl
        rfl
      · exact fun settled => settled.yield (foreign other mem different)
      · have kept : (peer.applyToBuilder (.new peer.publicKey)).request.flags &&&
                WgPeerFlags.RemoveMe = 0 := by
          change (0 ||| WgPeerFlags.ReplaceAllowedIps) &&& WgPeerFlags.RemoveMe = 0
          decide
        rw [KernelDevice.lookup_setPeer kept, if_pos rfl, absent]
        exact ⟨_, rfl, settles_addition _⟩
  | some split =>
      rw [current] at start
      have kernelStored : StoredIps split.peer.allowedIps := by
        have found := dump.lookup_peer peer.publicKey
        rw [current] at found
        exact stored.ips _ (KernelDevice.lookup_eq_some_iff.mp found.symm).1
      cases same : (peer.diffAgainst split.read).isEmpty with
      | true =>
          refine KernelDevice.lookup_setPeers_of_unnamed
            (Settled declared peer (some split))
            (fun builder member => ?_) (fun builder member found settled => ?_)
            ⟨split.peer, start, settles_of_isEmpty kernelStored same⟩
          · exact unnamed_of_isEmpty distinct listed current same member
          · exact settled.yield (foreign builder member
              (unnamed_of_isEmpty distinct listed current same member))
      | false =>
          have modification : peer.modification dump =
                some (peer.applyChangesToBuilder (.new peer.publicKey)
                  (peer.diffAgainst split.read)) := by
            simp [DeclaredWgPeer.modification, current, same]
          have member := (DeclaredWgDevice.mem_writes_iff distinct).mpr
            (.inr ⟨peer, listed, modification⟩)
          have named := DeclaredWgPeer.publicKey_of_modification modification
          refine KernelDevice.lookup_setPeers_of_named (Waiting declared peer split)
            (Settled declared peer (some split)) unique
            member named (fun other mem different found => ⟨?_, ?_⟩)
            (fun before waiting => ?_) ⟨split.peer, start, ?_⟩
          · exact fun waiting => waiting.yield (foreign other mem different)
          · exact fun settled => settled.yield (foreign other mem different)
          · obtain ⟨waitingPeer, found, waits⟩ := waiting
            rw [KernelDevice.lookup_setPeer modification_kept, if_pos rfl, found]
            exact ⟨_, rfl, waits.settles⟩
          · exact ⟨rfl, rfl, keeps_of_unset kernelStored⟩

end

theorem lookup_reconcile_undeclared {key : Key}
    (undeclared : key ∉ declared.peers.map (·.publicKey)) :
    (device.reconcile declared dump.read).lookup key = none := by
  have start := lookup_setDeclared device declared (declared.diffAgainst dump.read) key
  rw [lookup_reconcile]
  split
  · rfl
  · rename_i present
    have absent : device.lookup key = none :=
      KernelDevice.lookup_eq_none_iff.mpr fun known => present ⟨known, undeclared⟩
    refine KernelDevice.lookup_setPeers_of_unnamed (· = none)
      (fun builder member named => ?_) (fun builder _ found none => ?_) (start.trans absent)
    · obtain ⟨peer, listed, sameKey, _⟩ := DeclaredWgDevice.of_mem_writes member
      exact undeclared (named ▸ sameKey ▸ mem_map_of_mem listed)
    · rw [none]
      rfl

end Settling

end Nlink.Wireguard
