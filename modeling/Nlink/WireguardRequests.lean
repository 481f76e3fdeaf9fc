import Nlink.WireguardApply
import Nlink.WireguardConf

namespace Nlink.Wireguard

open Foundation Netlink Network Nftables List

/-!
# The peers of a device over a run of requests

A request changes the peer that it names.  Every other peer only loses the
allowed IPs that the request sets.
-/

namespace KernelDevice

/-- The peer of a device with a public key. -/
def lookup (device : KernelDevice) (key : Key) : Option KernelPeer :=
  lookupBy (·.publicKey) device.peers key

variable {key : Key}

variable {device : KernelDevice}

/-- A device has one peer for a key. -/
theorem lookup_eq_some_iff {peer : KernelPeer} :
    device.lookup key = some peer ↔ peer ∈ device.peers ∧ peer.publicKey = key :=
  lookupBy_eq_some_iff device.distinct

theorem lookup_eq_none_iff {key : Key} :
    device.lookup key = none ↔ key ∉ device.peers.map (·.publicKey) :=
  lookupBy_eq_none_iff

theorem lookupBy_withPeer (peers : List KernelPeer) (key other : Key) :
    lookupBy (·.publicKey) (withPeer peers key) other =
      if other = key then
        some ((lookupBy (·.publicKey) peers key).getD (.new key))
      else
        lookupBy (·.publicKey) peers other := by
  have newKey : (KernelPeer.new key).publicKey = key := rfl
  rw [withPeer]
  split
  · rename_i known
    split
    · rename_i same
      obtain ⟨peer, found⟩ := Option.ne_none_iff_exists'.mp
        (mt lookupBy_eq_none_iff.mp (not_not_intro known))
      rw [same, found]
      rfl
    · rfl
  · rename_i unknown
    rw [lookupBy_snoc, newKey]
    by_cases same : other = key
    · subst same
      rw [if_pos rfl, if_pos rfl, lookupBy_eq_none_iff.mpr unknown]
      rfl
    · rw [if_neg same, if_neg (Ne.symm same), Option.or_none]

theorem lookup_setPeer {request : PeerRequest} (kept : request.flags &&& WgPeerFlags.RemoveMe = 0)
    (device : KernelDevice) (key other : Key) :
    (device.setPeer key request).lookup other =
      if other = key then
        some (((device.lookup key).getD (.new key)).merge request)
      else
        (device.lookup other).map (·.yield request.allowedIps) := by
  rw [setPeer, if_pos kept, lookup,
    lookupBy_map (requested_publicKey key request), lookupBy_withPeer]
  split
  · rename_i same
    have named :
        ((lookupBy (·.publicKey) device.peers key).getD (.new key)).publicKey = key := by
      cases found : lookupBy (·.publicKey) device.peers key with
      | none => rfl
      | some peer => exact (mem_of_lookupBy found).2
    rw [Option.map_some, requested, if_pos named]
    rfl
  · rename_i different
    change Option.map _ (device.lookup other) = _
    cases found : device.lookup other with
    | none => rfl
    | some peer =>
        rw [Option.map_some, Option.map_some, requested,
          if_neg (by rw [(lookup_eq_some_iff.mp found).2]; exact different)]

theorem lookup_setPeer_remove {request : PeerRequest}
    (removed : ¬ request.flags &&& WgPeerFlags.RemoveMe = 0) (device : KernelDevice)
    (key other : Key) :
    (device.setPeer key request).lookup other =
      if other = key then none else device.lookup other := by
  rw [setPeer, if_neg removed]
  exact lookupBy_filter_ne key other

/-- What holds of a peer is kept by a request that does not name it. -/
theorem lookup_setPeers_of_unnamed (Holds : Option KernelPeer → Prop)
    {builders : List WgPeerBuilder} (unnamed : ∀ builder ∈ builders, builder.publicKey ≠ key)
    (yields : ∀ builder ∈ builders, ∀ peer, Holds peer →
      Holds (peer.map (·.yield builder.allowedIps)))
    (holds : Holds (device.lookup key)) : Holds ((device.setPeers builders).lookup key) := by
  induction builders generalizing device with
  | nil => exact holds
  | cons builder rest ih =>
      have different : key ≠ builder.publicKey := Ne.symm (unnamed builder mem_cons_self)
      have next : Holds ((device.setPeer builder.publicKey builder.request).lookup key) := by
        by_cases kept : builder.request.flags &&& WgPeerFlags.RemoveMe = 0
        · rw [lookup_setPeer kept, if_neg different]
          exact yields builder mem_cons_self _ holds
        · rw [lookup_setPeer_remove kept, if_neg different]
          exact holds
      exact ih (fun other mem => unnamed other (mem_cons_of_mem _ mem))
        (fun other mem => yields other (mem_cons_of_mem _ mem)) next

theorem lookup_setPeers_of_named (Before After : Option KernelPeer → Prop)
    {builders : List WgPeerBuilder} (distinct : (builders.map (·.publicKey)).Nodup)
    {builder : WgPeerBuilder} (member : builder ∈ builders) (named : builder.publicKey = key)
    (yields : ∀ other ∈ builders, other.publicKey ≠ key → ∀ peer,
      (Before peer → Before (peer.map (·.yield other.allowedIps))) ∧
        (After peer → After (peer.map (·.yield other.allowedIps))))
    (requested : ∀ device : KernelDevice, Before (device.lookup key) →
      After ((device.setPeer key builder.request).lookup key))
    (before : Before (device.lookup key)) : After ((device.setPeers builders).lookup key) := by
  obtain ⟨front, back, rfl⟩ := append_of_mem member
  rw [map_append, map_cons, nodup_middle, nodup_cons, mem_append, not_or] at distinct
  obtain ⟨⟨frontFresh, backFresh⟩, _⟩ := distinct
  have frontUnnamed : ∀ other ∈ front, other.publicKey ≠ key := by
    intro other mem same
    exact frontFresh (named ▸ same ▸ mem_map_of_mem mem)
  have backUnnamed : ∀ other ∈ back, other.publicKey ≠ key := by
    intro other mem same
    exact backFresh (named ▸ same ▸ mem_map_of_mem mem)
  rw [setPeers, foldl_append, foldl_cons]
  refine lookup_setPeers_of_unnamed After backUnnamed
    (fun other mem peer => (yields other (mem_append_right _ (mem_cons_of_mem _ mem))
      (backUnnamed other mem) peer).2) ?_
  rw [named]
  refine requested _ ?_
  exact lookup_setPeers_of_unnamed Before frontUnnamed
    (fun other mem peer => (yields other (mem_append_left _ mem)
      (frontUnnamed other mem) peer).1) before

end KernelDevice

open Foundation.Text

/-!
## The two parsers, value by value

Where both parsers accept a value they read the same from it.  They differ in
what a repeated key does to a peer: the program replaces the allowed IPs and can
turn an interval off again, the library adds allowed IPs and keeps the last
interval.
-/

section Values

variable {decode : List Char → Except String (List UInt8)}
variable {lineno : Nat} {value : List Char}

theorem parseKey_eq (canonical : Base64.Canonical decode) {field otherField : String}
    {key other : Key} (trimmed : trim value = value)
    (read : Conf.decodeKey decode lineno field value = .ok key)
    (readOther : Quick.parseKey otherField value = .ok other) : other = key := by
  rw [Conf.decodeKey, Conf.base64Decode, trimmed] at read
  split at read
  · cases read
  · rename_i bytes decoded
    split at read
    · rename_i length_eq
      cases read
      have encoded := canonical value bytes decoded
      have back := b64Decode32_encode { bytes := bytes, length_eq := length_eq }
      rw [Quick.parseKey, encoded, back] at readOther
      cases readOther
      rfl
    · cases read

theorem parseListenPort_eq {port other : BitVec 16}
    (read : Conf.parseListenPort lineno value = .ok port)
    (readOther : Quick.parseListenPort value = .ok other) : other = port := by
  rw [Conf.parseListenPort] at read
  rw [Quick.parseListenPort] at readOther
  cases number : parseUint 16 10 value with
  | error error =>
      rw [number] at read
      cases read
  | ok number' =>
      rw [number] at read readOther
      cases read
      cases readOther
      rfl

theorem parseFwmark_eq {mark other : BitVec 32} (read : Conf.parseFwmark lineno value = .ok mark)
    (readOther : Quick.parseFwmark value = .ok other) : other = mark := by
  rw [Conf.parseFwmark] at read
  rw [Quick.parseFwmark] at readOther
  cases number : fwmarkValue value with
  | error error =>
      rw [number] at read
      cases read
  | ok number' =>
      rw [number] at read readOther
      cases read
      cases readOther
      rfl

theorem parseEndpoint_eq {endpoint other : SocketAddr}
    (read : Conf.parseEndpoint lineno value = .ok endpoint)
    (readOther : Quick.parseEndpoint value = .ok other) : other = endpoint := by
  rw [Conf.parseEndpoint] at read
  rw [Quick.parseEndpoint] at readOther
  cases address : parseSocketAddr value with
  | none =>
      rw [address] at read
      cases read
  | some address' =>
      rw [address] at read readOther
      cases read
      cases readOther
      rfl

theorem parseCidr_eq {ip other : AllowedIp} (trimmed : trim value = value)
    (read : Conf.parseAllowedIp lineno value = .ok ip)
    (readOther : Quick.parseCidr value = .ok other) : other = ip := by
  rw [Conf.parseAllowedIp] at read
  rw [Quick.parseCidr, trimmed] at readOther
  cases parts : splitOnce '/' value with
  | none =>
      rw [parts] at read
      cases read
  | some parts' =>
      obtain ⟨addrStr, prefixStr⟩ := parts'
      simp only [parts] at read readOther
      cases address : parseIpAddr addrStr with
      | none =>
          rw [address] at readOther
          cases readOther
      | some addr =>
          rw [trim_of_unspaced (unspaced_of_parseIpAddr address)] at read
          simp only [address] at read readOther
          cases number : parseUint 8 10 prefixStr with
          | error error =>
              simp only [number] at readOther
              cases readOther
          | ok bits =>
              rw [trim_of_unspaced (unspaced_of_parseUint number)] at read
              simp only [number] at read readOther
              by_cases large : (if isIpv4 addr then 32 else 128) < bits
              · rw [if_pos large] at read
                cases read
              · rw [if_neg large] at read readOther
                cases read
                cases readOther
                rw [Nat.min_eq_left (Nat.not_lt.mp large)]

/-- A value that lists no allowed IP. -/
def ListsNothing (value : List Char) : Prop :=
  ∀ piece ∈ split ',' value, trim piece = []

/-- The library adds what the program reads. -/
theorem pushAllowedIps_eq {old ips new : List AllowedIp}
    (read : Conf.parseAllowedIps lineno value = .ok ips)
    (readOther : Quick.pushAllowedIps old value = .ok new) :
    new = old ++ ips ∧ (ips = [] ↔ ListsNothing value) := by
  have loop : ∀ (pieces : List (List Char)) out, pieces.foldlM (fun out cidr => do
              let cidr := trim cidr
              if cidr = [] then
                return out
              else
                let ip ← Conf.parseAllowedIp lineno cidr
                return out ++ [ip])
            out = .ok ips →
          ∀ others, pieces.foldlM
                (fun allowedIps part => do
                  let part := trim part
                  if part = [] then
                    return allowedIps
                  else
                    let ip ← Quick.parseCidr part
                    return allowedIps ++ [ip])
                others = .ok new →
              ∃ read, ips = out ++ read ∧ new = others ++ read ∧
                (read = [] ↔ ∀ piece ∈ pieces, trim piece = []) := by
    intro pieces
    induction pieces with
    | nil =>
        intro out read others readOther
        cases read
        cases readOther
        exact ⟨[], by simp, by simp, by simp⟩
    | cons piece rest ih =>
        intro out read others readOther
        rw [foldlM_cons, bind_eq_ok_iff] at read readOther
        obtain ⟨middle, first, read⟩ := read
        obtain ⟨otherMiddle, firstOther, readOther⟩ := readOther
        obtain ⟨later, ipsEq, newEq, iff⟩ := ih middle read otherMiddle readOther
        by_cases blank : trim piece = []
        · rw [if_pos blank] at first firstOther
          cases first
          cases firstOther
          refine ⟨later, ipsEq, newEq, ?_⟩
          rw [forall_mem_cons, iff]
          exact (and_iff_right blank).symm
        · rw [if_neg blank, bind_eq_ok_iff] at first firstOther
          obtain ⟨ip, ipRead, first⟩ := first
          obtain ⟨other, otherRead, firstOther⟩ := firstOther
          cases first
          cases firstOther
          obtain rfl := parseCidr_eq (trim_trim piece) ipRead otherRead
          refine ⟨other :: later, ?_, ?_, ?_⟩
          · rw [ipsEq, List.append_assoc]
            rfl
          · rw [newEq, List.append_assoc]
            rfl
          · rw [forall_mem_cons]
            exact iff_of_false (cons_ne_nil _ _) fun allBlank => blank allBlank.1
  obtain ⟨ips', rfl, newEq, iff⟩ := loop _ [] read old readOther
  exact ⟨newEq, iff⟩

def turnsOff (value : List Char) : Bool :=
  eqIgnoreAsciiCase value "off".toList || value = ['0']

/-- A value that is a number other than zero. -/
def setsInterval (value : List Char) : Bool :=
  !turnsOff value &&
    match parseUint 16 10 value with
    | .ok secs => secs ≠ 0
    | .error _ => false

/-- What an interval that the program reads does to that of the library. -/
def keepInterval (keepalive : Option Duration) : Option (BitVec 16) → Option Duration
  | some secs => if secs = 0 then keepalive else some (.fromSecs secs.toNat)
  | none => keepalive

def IsInterval (value : List Char) (secs : Option (BitVec 16)) : Prop :=
  (secs = none ↔ turnsOff value = true) ∧
    (setsInterval value = true ↔ ∃ given, secs = some given ∧ given ≠ 0)

theorem setKeepalive_eq {secs : Option (BitVec 16)} {old new : Option Duration}
    (read : Conf.parseKeepalive lineno value = .ok secs)
    (readOther : Quick.setKeepalive old value = .ok new) :
    new = keepInterval old secs ∧ IsInterval value secs := by
  rw [Conf.parseKeepalive] at read
  rw [Quick.setKeepalive] at readOther
  by_cases off : turnsOff value = true
  · have isOff : setsInterval value = false := by
      rw [setsInterval, off]
      rfl
    rw [turnsOff] at off
    rw [if_pos off] at read
    cases read
    refine ⟨?_, iff_of_true rfl off, ?_⟩
    · rw [Bool.or_eq_true, decide_eq_true_iff] at off
      rcases off with off | rfl
      · rw [if_pos off] at readOther
        cases readOther
        rfl
      · cases readOther
        rfl
    · rw [isOff]
      simp
  · have number : setsInterval value =
        (match parseUint 16 10 value with
        | .ok secs => decide (secs ≠ 0)
        | .error _ => false) := by
      rw [setsInterval, Bool.eq_false_iff.mpr off]
      rfl
    rw [turnsOff] at off
    rw [if_neg off] at read
    rw [Bool.or_eq_true, not_or] at off
    rw [if_neg off.1] at readOther
    cases parsed : parseUint 16 10 value with
    | error error =>
        rw [parsed] at read
        cases read
    | ok given =>
        have small : given < 2 ^ 16 := lt_of_parseUint parsed
        have isZero : BitVec.ofNat 16 given = 0 ↔ given = 0 := by
          rw [← BitVec.toNat_inj, BitVec.toNat_ofNat, Nat.mod_eq_of_lt small]
          rfl
        rw [parsed] at read number
        simp only [parsed] at readOther
        cases read
        refine ⟨?_, ?_, ?_⟩
        · rw [keepInterval]
          by_cases zero : given = 0
          · rw [if_neg (not_not.mpr zero)] at readOther
            cases readOther
            rw [if_pos (isZero.mpr zero)]
          · rw [if_pos zero] at readOther
            cases readOther
            rw [if_neg (mt isZero.mp zero), BitVec.toNat_ofNat, Nat.mod_eq_of_lt small]
        · rw [turnsOff, Bool.or_eq_true]
          exact iff_of_false (Option.some_ne_none _) (not_or.mpr off)
        · rw [number, decide_eq_true_iff]
          simp only [Option.some.injEq, exists_eq_left', Ne, isZero]

end Values

/-!
## The requests of an apply

A declared peer gets at most one request: all of it when the kernel does not
have the peer, what differs when it does.  A peer that is not declared gets a
request that removes it.
-/

namespace SplitPeer

variable (split : SplitPeer)

theorem publicKey_of_mem_entries {split : SplitPeer} {entry : Entry}
    (member : entry ∈ split.entries) : entry.read.publicKey = split.peer.publicKey := by
  rcases mem_cons.mp member with rfl | continues
  · rfl
  · obtain ⟨ips, _, rfl⟩ := mem_map.mp continues
    rfl

theorem exists_entries_eq : ∃ front last, split.entries = front ++ [last] ∧
      last.read = split.read := by
  rw [entries, SplitPeer.read]
  cases split.continued using List.reverseRecOn with
  | nil => exact ⟨[], _, rfl, rfl⟩
  | append_singleton front ips =>
      rw [map_append, getLast?_concat]
      exact ⟨_ :: _, .continued split.peer.publicKey ips, rfl, rfl⟩

theorem lookup_collect_entries (key : Key) :
    (HashMap.collect (split.entries.map fun entry => (entry.read.publicKey, entry.read))).lookup
        key =
      if split.peer.publicKey = key then some split.read else none := by
  split_ifs with isKey
  · obtain ⟨front, last, entries, isLast⟩ := split.exists_entries_eq
    have lastKey : last.read.publicKey = key := by
      rw [publicKey_of_mem_entries (entries ▸ mem_append_right _ mem_cons_self), isKey]
    rw [entries, map_append, map_singleton, HashMap.collect_snoc, lastKey,
      AList.lookup_insert, isLast]
  · refine Option.eq_none_iff_forall_not_mem.mpr fun found isFound => isKey ?_
    obtain ⟨entry, member, same⟩ := mem_map.mp (HashMap.mem_of_lookup_collect isFound)
    rw [← publicKey_of_mem_entries member, (Prod.mk.inj same).1]

end SplitPeer

theorem lookup_collect_splits {splits : List SplitPeer}
    (distinct : (splits.map (·.peer.publicKey)).Nodup) (key : Key) :
    (HashMap.collect ((splits.flatMap (·.entries)).map fun entry =>
        (entry.read.publicKey, entry.read))).lookup key =
      (lookupBy (·.peer.publicKey) splits key).map (·.read) := by
  induction splits with
  | nil => rfl
  | cons split rest ih =>
      rw [map_cons, nodup_cons] at distinct
      rw [flatMap_cons, map_append, HashMap.lookup_collect_append, ih distinct.2,
        split.lookup_collect_entries, lookupBy, lookupBy, find?_cons]
      by_cases isKey : split.peer.publicKey = key
      · subst isKey
        rw [← lookupBy, lookupBy_eq_none_iff.mpr distinct.1]
        simp
      · simp [isKey]

namespace Dump

variable {order : ByteOrder} {device : KernelDevice} (dump : Dump order device)

/-- The entries of the peer with a public key. -/
def lookup (key : Key) : Option SplitPeer :=
  lookupBy (·.peer.publicKey) dump.splits key

theorem map_publicKey_splits :
    dump.splits.map (·.peer.publicKey) = device.peers.map (·.publicKey) := by
  rw [← dump.peers_eq, map_map]
  rfl

/-- What the dump shows for a key is the peer of the device. -/
theorem lookup_peer (key : Key) : (dump.lookup key).map (·.peer) = device.lookup key := by
  rw [lookup, KernelDevice.lookup, lookupBy, lookupBy, ← dump.peers_eq, find?_map]
  rfl

/-- Of a peer with more than one entry the last is kept. -/
theorem lookup_currKeys (key : Key) :
    (DeclaredWgDevice.currKeys dump.read).lookup key = (dump.lookup key).map (·.read) := by
  have distinct : (dump.splits.map (·.peer.publicKey)).Nodup := by
    rw [map_publicKey_splits]
    exact device.distinct
  rw [DeclaredWgDevice.currKeys, Dump.read, map_map]
  exact lookup_collect_splits distinct key

theorem mem_keys_read {key : Key} :
    key ∈ dump.read.peers.map (·.publicKey) ↔ key ∈ device.peers.map (·.publicKey) := by
  rw [← dump.map_publicKey_splits, Dump.read, map_map, mem_map, mem_map]
  constructor
  · rintro ⟨entry, member, rfl⟩
    obtain ⟨split, isSplit, isEntry⟩ := mem_flatMap.mp member
    exact ⟨split, isSplit, (SplitPeer.publicKey_of_mem_entries isEntry).symm⟩
  · rintro ⟨split, isSplit, rfl⟩
    exact ⟨_, mem_flatMap.mpr ⟨split, isSplit, mem_cons_self⟩, rfl⟩

/-- The peers to remove are those of the device that are not declared. -/
theorem mem_peersToRemove {declared : DeclaredWgDevice} {key : Key} :
    key ∈ (declared.diffAgainst dump.read).peersToRemove ↔
      key ∈ device.peers.map (·.publicKey) ∧ key ∉ declared.peers.map (·.publicKey) := by
  rw [DeclaredWgDevice.diffAgainst, mem_filter, mem_keys_read, decide_eq_true_iff]

end Dump

namespace DeclaredWgPeer

variable {order : ByteOrder} {device : KernelDevice} (dump : Dump order device)

/-- The request for a peer that the kernel does not have. -/
def addition (peer : DeclaredWgPeer) : Option WgPeerBuilder :=
  if (dump.lookup peer.publicKey).isNone then
    some (peer.applyToBuilder (.new peer.publicKey))
  else
    none

/-- The request for a peer that the kernel has and that is read as another. -/
def modification (peer : DeclaredWgPeer) : Option WgPeerBuilder := do
  let current ← dump.lookup peer.publicKey
  let changes := peer.diffAgainst current.read
  if changes.isEmpty then none else some (peer.applyChangesToBuilder (.new peer.publicKey) changes)

variable {dump}

theorem applyChangesToBuilder_fields (peer : DeclaredWgPeer) (changes : PeerChanges) :
    let builder := peer.applyChangesToBuilder (.new peer.publicKey) changes
    builder.publicKey = peer.publicKey ∧ builder.allowedIps =
        (if changes.allowedIpsSet then peer.allowedIps else []) ∧
      builder.flags =
        if changes.allowedIpsSet then WgPeerFlags.ReplaceAllowedIps else 0 := by
  simp only [applyChangesToBuilder]
  split
  · exact ⟨rfl, rfl, BitVec.zero_or⟩
  · exact ⟨rfl, rfl, rfl⟩

theorem applyChangesToBuilder_scalars (peer : DeclaredWgPeer) (changes : PeerChanges) :
    let builder := peer.applyChangesToBuilder (.new peer.publicKey) changes
    builder.endpoint = (if changes.endpointSet then peer.endpoint else none) ∧
      builder.persistentKeepalive =
        if changes.persistentKeepaliveSet then
          peer.persistentKeepalive.map (·.wantSecs)
        else
          none := by
  have endpoint : peer.endpoint.or (WgPeerBuilder.new peer.publicKey).endpoint =
        peer.endpoint :=
    Option.or_none
  have keepalive : (peer.persistentKeepalive.map (·.wantSecs)).or
          (WgPeerBuilder.new peer.publicKey).persistentKeepalive =
        peer.persistentKeepalive.map (·.wantSecs) :=
    Option.or_none
  simp only [applyChangesToBuilder, endpoint, keepalive]
  split
  · exact ⟨rfl, rfl⟩
  · exact ⟨rfl, rfl⟩

variable {peer : DeclaredWgPeer} {builder : WgPeerBuilder}

theorem eq_of_addition (added : peer.addition dump = some builder) :
    dump.lookup peer.publicKey = none ∧ builder = peer.applyToBuilder (.new peer.publicKey) := by
  rw [addition] at added
  split at added
  · rename_i absent
    cases added
    exact ⟨Option.isNone_iff_eq_none.mp absent, rfl⟩
  · cases added

theorem publicKey_of_addition (added : peer.addition dump = some builder) :
    builder.publicKey = peer.publicKey := by
  rw [(eq_of_addition added).2]
  rfl

theorem exists_of_modification (modified : peer.modification dump = some builder) :
    ∃ current, dump.lookup peer.publicKey = some current ∧
      (peer.diffAgainst current.read).isEmpty = false ∧
      builder = peer.applyChangesToBuilder (.new peer.publicKey)
          (peer.diffAgainst current.read) := by
  rw [modification] at modified
  cases found : dump.lookup peer.publicKey with
  | none => simp [found] at modified
  | some current =>
      simp only [found, Option.bind_eq_bind, Option.bind_some] at modified
      split at modified
      · cases modified
      · rename_i changed
        cases modified
        exact ⟨current, rfl, by simpa using changed, rfl⟩

theorem publicKey_of_modification (modified : peer.modification dump = some builder) :
    builder.publicKey = peer.publicKey := by
  obtain ⟨current, _, _, rfl⟩ := exists_of_modification modified
  exact (applyChangesToBuilder_fields peer _).1

end DeclaredWgPeer

theorem nodup_filterMap {α β κ : Type} {keyOf : α → κ} {keyOfImage : β → κ} {image : α → Option β}
    (kept : ∀ item made, image item = some made → keyOfImage made = keyOf item) {items : List α}
    (distinct : (items.map keyOf).Nodup) : ((items.filterMap image).map keyOfImage).Nodup := by
  refine distinct.sublist ?_
  induction items with
  | nil => exact .slnil
  | cons item rest ih =>
      have restDistinct := (nodup_cons.mp distinct).2
      cases made : image item with
      | none =>
          rw [filterMap_cons_none made]
          exact (ih restDistinct).cons _
      | some image =>
          rw [filterMap_cons_some made, map_cons, map_cons, kept _ _ made]
          exact (ih restDistinct).cons_cons _

/-- Removals remove the peers that they name, and no other peer changes. -/
theorem lookup_setPeers_removals (device : KernelDevice) (keys : List Key) (key : Key) :
    (device.setPeers (removals keys)).lookup key =
      if key ∈ keys then none else device.lookup key := by
  have removes : ¬ (0 ||| WgPeerFlags.RemoveMe) &&& WgPeerFlags.RemoveMe = 0 := by decide
  induction keys generalizing device with
  | nil => rfl
  | cons first rest ih =>
      change ((device.setPeer first (WgPeerBuilder.new first).remove.request).setPeers
        (removals rest)).lookup key = _
      rw [ih, KernelDevice.lookup_setPeer_remove removes]
      by_cases isFirst : key = first <;> simp [isFirst]

namespace DeclaredWgDevice

variable {order : ByteOrder} {device : KernelDevice} {dump : Dump order device}
variable {declared : DeclaredWgDevice}

section

variable (distinct : (declared.peers.map (·.publicKey)).Nodup)

include distinct

/-- The writes that follow from the difference, peer by peer. -/
theorem writes_eq :
    declared.writes (declared.diffAgainst dump.read) =
      declared.peers.filterMap (·.addition dump) ++
        declared.peers.filterMap (·.modification dump) := by
  have added : (declared.diffAgainst dump.read).peersToAdd.map
          (fun added => added.applyToBuilder (.new added.publicKey)) =
        declared.peers.filterMap (·.addition dump) := by
    rw [diffAgainst, ← filterMap_eq_map', ← filterMap_eq_filter, filterMap_filterMap]
    refine filterMap_congr fun peer _ => ?_
    simp only [DeclaredWgPeer.addition, Option.guard, dump.lookup_currKeys]
    cases dump.lookup peer.publicKey <;> rfl
  have modified :
      ((declared.diffAgainst dump.read).peersToModify.filterMap
        fun modified =>
          (declared.peers.find? (·.publicKey = modified.1)).map fun peer =>
            peer.applyChangesToBuilder (.new modified.1) modified.2) =
        declared.peers.filterMap (·.modification dump) := by
    rw [diffAgainst, filterMap_filterMap]
    refine filterMap_congr fun peer member => ?_
    have search : declared.peers.find? (·.publicKey = peer.publicKey) = some peer :=
      (lookupBy_eq_some_iff distinct).mpr ⟨member, rfl⟩
    rw [DeclaredWgPeer.modification, dump.lookup_currKeys]
    cases dump.lookup peer.publicKey with
    | none => rfl
    | some current =>
        simp only [Option.map_some, Option.bind_eq_bind, Option.bind_some]
        split
        · rfl
        · rw [Option.bind_some, search]
          rfl
  rw [writes, added, modified]

theorem mem_writes_iff
    {builder : WgPeerBuilder} :
    builder ∈ declared.writes (declared.diffAgainst dump.read) ↔
      (∃ peer ∈ declared.peers, peer.addition dump = some builder) ∨
        ∃ peer ∈ declared.peers, peer.modification dump = some builder := by
  rw [writes_eq distinct, mem_append, mem_filterMap, mem_filterMap]

theorem nodup_writes :
    ((declared.writes (declared.diffAgainst dump.read)).map (·.publicKey)).Nodup := by
  rw [writes_eq distinct, map_append]
  refine List.Nodup.append ?_ ?_ ?_
  · exact nodup_filterMap (fun _ _ => DeclaredWgPeer.publicKey_of_addition) distinct
  · exact nodup_filterMap (fun _ _ => DeclaredWgPeer.publicKey_of_modification) distinct
  · intro key added modified
    simp only [mem_map, mem_filterMap] at added modified
    obtain ⟨_, ⟨peer, _, addition⟩, rfl⟩ := added
    obtain ⟨_, ⟨other, _, modification⟩, sameKey⟩ := modified
    have absent := (DeclaredWgPeer.eq_of_addition addition).1
    obtain ⟨current, found, _⟩ := DeclaredWgPeer.exists_of_modification modification
    rw [DeclaredWgPeer.publicKey_of_modification modification,
      DeclaredWgPeer.publicKey_of_addition addition] at sameKey
    rw [sameKey, absent] at found
    cases found

end

/-- A write is about a declared peer, and sets allowed IPs that are declared
for it, if any. -/
theorem of_mem_writes {current : WgDevice} {builder : WgPeerBuilder}
    (member : builder ∈ declared.writes (declared.diffAgainst current)) :
    ∃ peer ∈ declared.peers, peer.publicKey = builder.publicKey ∧
      (builder.allowedIps = [] ∨ builder.allowedIps = peer.allowedIps) := by
  rcases mem_append.mp member with added | changed
  · obtain ⟨peer, isAdded, rfl⟩ := mem_map.mp added
    exact ⟨peer, mem_of_mem_filter isAdded, rfl, .inr rfl⟩
  · obtain ⟨modified, _, made⟩ := mem_filterMap.mp changed
    obtain ⟨peer, found, rfl⟩ := Option.map_eq_some_iff.mp made
    have named : peer.publicKey = modified.1 := by simpa using find?_some found
    rw [← named]
    obtain ⟨key, ips, _⟩ := peer.applyChangesToBuilder_fields modified.2
    refine ⟨peer, mem_of_find?_eq_some found, key.symm, ?_⟩
    rw [ips]
    split
    · exact .inr rfl
    · exact .inl rfl

end DeclaredWgDevice

end Nlink.Wireguard
