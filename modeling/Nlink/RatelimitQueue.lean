import Nlink.RatelimitReconcile

namespace Nlink.Ratelimit

open Foundation List
open Nlink.Tc
open Nlink.Tc.TcHandle
open Nlink.Network (IpAddr)

/-!
# Packets in the classes of a limiter

A rule is declared for some packets.  A packet for which one rule is declared
is queued in the class of the rule, when the rule has filters for it.
-/

/-!
## What rules are declared for
-/

def srcAddr (packet : IpPacket) : IpAddr :=
  match packet.addresses with
  | .v4 src _ => .v4 src
  | .v6 src _ => .v6 src

def dstAddr (packet : IpPacket) : IpAddr :=
  match packet.addresses with
  | .v4 _ dst => .v4 dst
  | .v6 _ dst => .v6 dst

def isIpv4 (packet : IpPacket) : Bool :=
  match packet.addresses with
  | .v4 _ _ => true
  | .v6 _ _ => false

def isTcp (packet : IpPacket) : Bool :=
  packet.transport.proto = IPPROTO_TCP

def inSubnet (network : IpAddr) (length : BitVec 8) : IpAddr → Prop
  | .v4 addr =>
      match network with
      | .v4 bits => SharePrefix length.toNat addr bits
      | .v6 _ => False
  | .v6 addr =>
      match network with
      | .v4 _ => False
      | .v6 bits => SharePrefix length.toNat addr bits

namespace HostMatch

/-- The packets that a rule is declared for. -/
def Matches (packet : IpPacket) : HostMatch → Prop
  | .ip addr => dstAddr packet = addr
  | .subnet addr length => inSubnet addr length (dstAddr packet)
  | .port number => packet.transport.dstPort = some number
  | .portRange start last =>
      ∃ number, packet.transport.dstPort = some number ∧ start ≤ number ∧ number ≤ last
  | .srcIp addr => srcAddr packet = addr
  | .srcSubnet addr length => inSubnet addr length (srcAddr packet)

def filtersPorts : HostMatch → Bool
  | .port _ => true
  | .portRange start last => last - start ≤ 10
  | _ => false

/-- A rule has filters for all packets with an address, for IPv4 packets with a
port, and of short ranges of ports for those of TCP. -/
def HasFilters (packet : IpPacket) : HostMatch → Prop
  | .port _ => isIpv4 packet = true
  | .portRange start last => isIpv4 packet = true ∧ isTcp packet = true ∧ last - start ≤ 10
  | _ => True

end HostMatch

/-- The rule is the only one that is declared for the packet. -/
def PerHostLimiter.OnlyMatch (limiter : PerHostLimiter) (packet : IpPacket)
    (item : HostRule × Nat) : Prop :=
  item ∈ limiter.rules.zipIdx ∧ item.1.match_.Matches packet ∧
    ∀ other ∈ limiter.rules.zipIdx, other.1.match_.Matches packet → other = item

/-!
## What filters select
-/

section

variable {frame : Packet} {packet : IpPacket}

theorem keyAgrees_prefix {width : Nat} (wanted bits : BitVec width) (length : Nat) :
    keyAgrees (some (wanted, prefixMask width length)) (some bits) = true ↔
      SharePrefix length bits wanted := by
  rw [keyAgrees, Option.all_some, Option.any_some, decide_eq_true_iff, and_prefixMask_eq_iff]

theorem hasEthType_ip (isIp : frame.network = .ip packet) {ethType : BitVec 16}
    (notVlan : isVlanType ethType = false) :
    frame.hasEthType ethType = decide (packet.addresses.ethType = ethType) := by
  rw [Packet.hasEthType, notVlan, Packet.networkType, isIp]
  rfl

/-- A filter with keys on addresses only. -/
def addressAttrs (classid : TcHandle) (ethType : BitVec 16)
    (src4 dst4 : Option (BitVec 32 × BitVec 32))
    (src6 dst6 : Option (BitVec 128 × BitVec 128)) : FlowerAttrs where
  classid := some classid
  flags := none
  keyEthType := some ethType
  keyIpProto := none
  keyIpv4Src := src4
  keyIpv4Dst := dst4
  keyIpv6Src := src6
  keyIpv6Dst := dst6
  keyTcpSrc := none
  keyUdpSrc := none
  keyTcpDst := none
  keyUdpDst := none
  keyEthSrc := none
  keyEthDst := none
  keyVlanId := none
  keyVlanPrio := none
  keyIpTos := none
  keyIpTtl := none
  keyTcpFlags := none
  act := none

variable {classid : TcHandle}

theorem selects_addressAttrs (isIp : frame.network = .ip packet) {ethType : BitVec 16}
    {src4 dst4 : Option (BitVec 32 × BitVec 32)} {src6 dst6 : Option (BitVec 128 × BitVec 128)} :
    (addressAttrs classid ethType src4 dst4 src6 dst6).selects frame =
      (frame.hasEthType ethType && keyAgrees src4 packet.addresses.srcIpv4 &&
        keyAgrees dst4 packet.addresses.dstIpv4 &&
        (!(src4.isNone && dst4.isNone) || keyAgrees src6 packet.addresses.srcIpv6 &&
          keyAgrees dst6 packet.addresses.dstIpv6)) := by
  have ip : frame.ip = some packet := by rw [Packet.ip, isIp]
  simp [FlowerAttrs.selects, addressAttrs, ip, keyIs, keyAgrees,
    FlowerAttrs.honoursProto, FlowerAttrs.honoursIpv6]

/-- The filter on a destination, with its protocol and priority. -/
def dstFilter (classid : TcHandle) (priority : BitVec 16) (length : BitVec 8) :
    IpAddr → BitVec 16 × BitVec 16 × FlowerFilter
  | .v4 addr =>
      (ETH_P_IP, priority, (FlowerFilter.selecting classid priority).withDstIpv4 addr length)
  | .v6 addr =>
      (ETH_P_IPV6, priority, (FlowerFilter.selecting classid priority).withDstIpv6 addr length)

def srcFilter (classid : TcHandle) (priority : BitVec 16) (length : BitVec 8) :
    IpAddr → BitVec 16 × BitVec 16 × FlowerFilter
  | .v4 addr =>
      (ETH_P_IP, priority, (FlowerFilter.selecting classid priority).withSrcIpv4 addr length)
  | .v6 addr =>
      (ETH_P_IPV6, priority, (FlowerFilter.selecting classid priority).withSrcIpv6 addr length)

variable {priority : BitVec 16} {length : BitVec 8}

variable {addr : IpAddr}

theorem selects_dstFilter (isIp : frame.network = .ip packet) :
    (dstFilter classid priority length addr).2.2.writeOptions.selects frame = true ↔
      inSubnet addr length (dstAddr packet) := by
  cases addr with
  | v4 bits =>
      change (addressAttrs classid ETH_P_IP none
        (some (bits, ipv4Mask length)) none none).selects frame = true ↔ _
      rw [selects_addressAttrs isIp, hasEthType_ip isIp rfl, ipv4Mask_eq, dstAddr]
      cases packet.addresses with
      | v4 src dst =>
          rw [Addresses.dstIpv4, inSubnet, ← keyAgrees_prefix]
          simp [Addresses.ethType, keyAgrees]
      | v6 src dst => simp [Addresses.ethType, ETH_P_IP, ETH_P_IPV6, inSubnet]
  | v6 bits =>
      change (addressAttrs classid ETH_P_IPV6 none none none
        (some (bits, ipv6Mask length))).selects frame = true ↔ _
      rw [selects_addressAttrs isIp, hasEthType_ip isIp rfl, ipv6Mask_eq, dstAddr]
      cases packet.addresses with
      | v4 src dst => simp [Addresses.ethType, ETH_P_IP, ETH_P_IPV6, inSubnet]
      | v6 src dst =>
          rw [Addresses.dstIpv6, inSubnet, ← keyAgrees_prefix]
          simp [Addresses.ethType, keyAgrees]

theorem selects_srcFilter (isIp : frame.network = .ip packet) :
    (srcFilter classid priority length addr).2.2.writeOptions.selects frame = true ↔
      inSubnet addr length (srcAddr packet) := by
  cases addr with
  | v4 bits =>
      change (addressAttrs classid ETH_P_IP (some (bits, ipv4Mask length))
        none none none).selects frame = true ↔ _
      rw [selects_addressAttrs isIp, hasEthType_ip isIp rfl, ipv4Mask_eq, srcAddr]
      cases packet.addresses with
      | v4 src dst =>
          rw [Addresses.srcIpv4, inSubnet, ← keyAgrees_prefix]
          simp [Addresses.ethType, keyAgrees]
      | v6 src dst => simp [Addresses.ethType, ETH_P_IP, ETH_P_IPV6, inSubnet]
  | v6 bits =>
      change (addressAttrs classid ETH_P_IPV6 none none
        (some (bits, ipv6Mask length)) none).selects frame = true ↔ _
      rw [selects_addressAttrs isIp, hasEthType_ip isIp rfl, ipv6Mask_eq, srcAddr]
      cases packet.addresses with
      | v4 src dst => simp [Addresses.ethType, ETH_P_IP, ETH_P_IPV6, inSubnet]
      | v6 src dst =>
          rw [Addresses.srcIpv6, inSubnet, ← keyAgrees_prefix]
          simp [Addresses.ethType, keyAgrees]

theorem inSubnet_fullLength {network addr : IpAddr} :
    inSubnet network (fullLength network) addr ↔ addr = network := by
  cases network with
  | v4 bits =>
      cases addr with
      | v4 other => rw [inSubnet, fullLength, sharePrefix_of_width_le (by decide), IpAddr.v4.injEq]
      | v6 other => simp [inSubnet]
  | v6 bits =>
      cases addr with
      | v4 other => simp [inSubnet]
      | v6 other => rw [inSubnet, fullLength, sharePrefix_of_width_le (by decide), IpAddr.v6.injEq]

theorem isFor_iff (isIp : frame.network = .ip packet) {ethType priority : BitVec 16}
    {filter : FlowerFilter} (notAll : ethType ≠ ETH_P_ALL) :
    (rootFilter (ethType, priority, filter)).isFor frame = true ↔
      ethType = packet.addresses.ethType := by
  have network : frame.networkType = packet.addresses.ethType := by rw [Packet.networkType, isIp]
  change (decide (ethType = frame.networkType) || decide (ethType = ETH_P_ALL)) = true ↔ _
  rw [network, decide_eq_false notAll, Bool.or_false, decide_eq_true_iff]

theorem ipv4_ne_all : ETH_P_IP ≠ ETH_P_ALL := by
  decide

theorem ipv6_ne_all : ETH_P_IPV6 ≠ ETH_P_ALL := by
  decide

theorem isFor_ip (isIp : frame.network = .ip packet) {filter : FlowerFilter} :
    (rootFilter (ETH_P_IP, priority, filter)).isFor frame = isIpv4 packet := by
  rw [Bool.eq_iff_iff, isFor_iff isIp ipv4_ne_all, isIpv4]
  cases packet.addresses <;>
    simp [Addresses.ethType, ETH_P_IP, ETH_P_IPV6]

theorem isFor_dstFilter (isIp : frame.network = .ip packet)
    (inside : inSubnet addr length (dstAddr packet)) :
    (rootFilter (dstFilter classid priority length addr)).isFor frame =
      true := by
  rw [dstAddr] at inside
  cases addr with
  | v4 bits =>
      refine (isFor_iff isIp ipv4_ne_all).mpr ?_
      cases onAddresses : packet.addresses with
      | v4 src dst => rfl
      | v6 src dst => rw [onAddresses] at inside; exact inside.elim
  | v6 bits =>
      refine (isFor_iff isIp ipv6_ne_all).mpr ?_
      cases onAddresses : packet.addresses with
      | v4 src dst => rw [onAddresses] at inside; exact inside.elim
      | v6 src dst => rfl

theorem isFor_srcFilter (isIp : frame.network = .ip packet)
    (inside : inSubnet addr length (srcAddr packet)) :
    (rootFilter (srcFilter classid priority length addr)).isFor frame =
      true := by
  rw [srcAddr] at inside
  cases addr with
  | v4 bits =>
      refine (isFor_iff isIp ipv4_ne_all).mpr ?_
      cases onAddresses : packet.addresses with
      | v4 src dst => rfl
      | v6 src dst => rw [onAddresses] at inside; exact inside.elim
  | v6 bits =>
      refine (isFor_iff isIp ipv6_ne_all).mpr ?_
      cases onAddresses : packet.addresses with
      | v4 src dst => rw [onAddresses] at inside; exact inside.elim
      | v6 src dst => rfl

end

/-!
## The filters of a rule
-/

theorem appliedFilters_eq (item : HostRule × Nat) : appliedFilters item =
      let classid := placeClass item.2
      let priority := BitVec.ofNat 16 (item.2 + 1)
      match item.1.match_ with
      | .ip addr => [dstFilter classid priority (fullLength addr) addr]
      | .subnet addr length => [dstFilter classid priority length addr]
      | .srcIp addr => [srcFilter classid priority (fullLength addr) addr]
      | .srcSubnet addr length => [srcFilter classid priority length addr]
      | .port port =>
          [(ETH_P_IP, priority, (FlowerFilter.selecting classid priority).ipProtoTcp
              |>.withDstPort port),
            (ETH_P_IP, priority + 100, (FlowerFilter.selecting classid (priority + 100)).ipProtoUdp
                |>.withDstPort port)]
      | .portRange start last =>
          if last - start ≤ 10 then
            (portsUpTo start last).map fun port =>
              (ETH_P_IP, priority, (FlowerFilter.selecting classid priority).ipProtoTcp
                  |>.withDstPort port)
          else
            [] := by
  rw [appliedFilters]
  cases isMatch : item.1.match_ with
  | ip addr | subnet addr length | srcIp addr | srcSubnet addr length =>
      simp only [wantedFilters, isMatch]
      cases addr <;> rfl
  | port port =>
      simp only [wantedFilters, isMatch]
      rfl
  | portRange start last => rfl

section

variable {frame : Packet} {packet : IpPacket} {item : HostRule × Nat}
variable {wanted : BitVec 16 × BitVec 16 × FlowerFilter}

theorem matches_of_selects (isIp : frame.network = .ip packet)
    (isApplied : wanted ∈ appliedFilters item) (isFor : (rootFilter wanted).isFor frame = true)
    (selects : wanted.2.2.writeOptions.selects frame = true) :
    item.1.match_.Matches packet ∨
      item.1.match_.filtersPorts = true ∧ isIpv4 packet = true := by
  rw [appliedFilters_eq] at isApplied
  cases isMatch : item.1.match_ with
  | ip addr =>
      simp only [isMatch, mem_singleton] at isApplied
      subst isApplied
      exact .inl (inSubnet_fullLength.mp ((selects_dstFilter isIp).mp selects))
  | subnet addr length =>
      simp only [isMatch, mem_singleton] at isApplied
      subst isApplied
      exact .inl ((selects_dstFilter isIp).mp selects)
  | srcIp addr =>
      simp only [isMatch, mem_singleton] at isApplied
      subst isApplied
      exact .inl (inSubnet_fullLength.mp ((selects_srcFilter isIp).mp selects))
  | srcSubnet addr length =>
      simp only [isMatch, mem_singleton] at isApplied
      subst isApplied
      exact .inl ((selects_srcFilter isIp).mp selects)
  | port port =>
      simp only [isMatch] at isApplied
      rcases mem_pair.mp isApplied with rfl | rfl
      · exact .inr ⟨rfl, (isFor_ip isIp).symm.trans isFor⟩
      · exact .inr ⟨rfl, (isFor_ip isIp).symm.trans isFor⟩
  | portRange start last =>
      simp only [isMatch] at isApplied
      by_cases short : last - start ≤ 10
      · rw [if_pos short, mem_map] at isApplied
        obtain ⟨port, _, rfl⟩ := isApplied
        exact .inr ⟨decide_eq_true short, (isFor_ip isIp).symm.trans isFor⟩
      · rw [if_neg short] at isApplied
        cases isApplied

/-- A packet of a rule with filters for it is selected by one of them. -/
theorem exists_selecting (isIp : frame.network = .ip packet)
    (isMatched : item.1.match_.Matches packet)
    (hasFilters : item.1.match_.HasFilters packet) :
    ∃ wanted ∈ appliedFilters item, wanted.2.1 = BitVec.ofNat 16 (item.2 + 1) ∧
      (rootFilter wanted).isFor frame = true ∧
      wanted.2.2.writeOptions.selects frame = true := by
  rw [appliedFilters_eq]
  cases isMatch : item.1.match_ with
  | ip addr =>
      rw [isMatch] at isMatched
      have inside : inSubnet addr (fullLength addr) (dstAddr packet) :=
        inSubnet_fullLength.mpr isMatched
      refine ⟨_, mem_singleton_self _, ?_, isFor_dstFilter isIp inside,
        (selects_dstFilter isIp).mpr inside⟩
      cases addr <;> rfl
  | subnet addr length =>
      rw [isMatch] at isMatched
      refine ⟨_, mem_singleton_self _, ?_, isFor_dstFilter isIp isMatched,
        (selects_dstFilter isIp).mpr isMatched⟩
      cases addr <;> rfl
  | srcIp addr =>
      rw [isMatch] at isMatched
      have inside : inSubnet addr (fullLength addr) (srcAddr packet) :=
        inSubnet_fullLength.mpr isMatched
      refine ⟨_, mem_singleton_self _, ?_, isFor_srcFilter isIp inside,
        (selects_srcFilter isIp).mpr inside⟩
      cases addr <;> rfl
  | srcSubnet addr length =>
      rw [isMatch] at isMatched
      refine ⟨_, mem_singleton_self _, ?_, isFor_srcFilter isIp isMatched,
        (selects_srcFilter isIp).mpr isMatched⟩
      cases addr <;> rfl
  | port port =>
      rw [isMatch] at hasFilters
      exact ⟨_, mem_cons_self, rfl, (isFor_ip isIp).trans hasFilters, rfl⟩
  | portRange start last =>
      rw [isMatch] at isMatched hasFilters
      obtain ⟨number, _, fromStart, toLast⟩ := isMatched
      obtain ⟨ipv4, _, short⟩ := hasFilters
      have inRange : number ∈ portsUpTo start last := by
        rw [BitVec.le_def] at fromStart toLast
        rw [portsUpTo, mem_map]
        refine ⟨number.toNat - start.toNat, ?_, ?_⟩
        · rw [mem_range]
          omega
        · rw [Nat.add_sub_of_le fromStart, BitVec.ofNat_toNat, BitVec.setWidth_eq]
      simp only [if_pos short]
      exact ⟨_, mem_map_of_mem inRange, rfl, (isFor_ip isIp).trans ipv4, rfl⟩

end

/-!
## Packets are queued as declared

On the tree that `apply` builds, the first filter that selects a packet is one
of the only rule that is declared for it.
-/

variable {limiter : PerHostLimiter} {ifindex : BitVec 32}
variable {others : String → Packet → Option (Option TcHandle)}

/-- The tree that `apply` builds. -/
def PerHostLimiter.appliedTree (limiter : PerHostLimiter) : TcTree :=
  limiter.fullTree (BitVec.ofNat 32 (limiter.rules.length + 1)) builtFilters

variable {frame : Packet}

theorem mem_tried_iff {filter : TcFilter} : filter ∈ limiter.appliedTree.tried frame ↔
      ∃ item ∈ limiter.rules.zipIdx, ∃ wanted ∈ appliedFilters item, rootFilter wanted = filter ∧
          (rootFilter wanted).isFor frame = true := by
  have filters : limiter.appliedTree.filters = limiter.rules.zipIdx.flatMap builtFilters := by
    change (limiter.rules.zipIdx.map (limiter.ruleSlot builtFilters) ++
      [limiter.defaultSlot]).flatMap Slot.filters = _
    rw [flatMap_append, flatMap_ruleSlots, flatMap_singleton]
    exact List.append_nil _
  rw [TcTree.tried, mem_filter, filters, mem_flatMap]
  constructor
  · rintro ⟨⟨item, isItem, isBuilt⟩, isTried⟩
    obtain ⟨wanted, isApplied, rfl⟩ := mem_map.mp isBuilt
    exact ⟨item, isItem, wanted, isApplied, rfl, (Bool.and_eq_true_iff.mp isTried).2⟩
  · rintro ⟨item, isItem, wanted, isApplied, rfl, isFor⟩
    refine ⟨⟨item, isItem, mem_map_of_mem isApplied⟩, ?_⟩
    rw [isFor, Bool.and_true]
    exact decide_eq_true rfl

variable {item : HostRule × Nat}

theorem result_rootFilter {wanted : BitVec 16 × BitVec 16 × FlowerFilter}
    (isApplied : wanted ∈ appliedFilters item) :
    (rootFilter wanted).result others frame =
      if wanted.2.2.writeOptions.selects frame then
        some (some (placeClass item.2))
      else
        none := by
  have classid : wanted.2.2.writeOptions.classid = some (placeClass item.2) :=
    (appliedFilters_spec isApplied).1
  rw [← classid]
  rfl

/-- The class that the filters select for a packet is that of its rule. -/
theorem selected_of_onlyMatch (few : limiter.rules.length < 100) {packet : IpPacket}
    (isIp : frame.network = .ip packet) (onlyMatch : limiter.OnlyMatch packet item)
    (hasFilters : item.1.match_.HasFilters packet)
    (noPortsBefore : isIpv4 packet = true → ∀ other ∈ limiter.rules.zipIdx, other.2 < item.2 →
        other.1.match_.filtersPorts = false) :
    limiter.appliedTree.selected others frame = some (placeClass item.2) := by
  obtain ⟨isItem, isMatched, only⟩ := onlyMatch
  obtain ⟨wanted, isApplied, priority, isFor, selects⟩ := exists_selecting isIp isMatched hasFilters
  have inside := snd_lt_of_mem_zipIdx isItem
  have first : (rootFilter wanted).priority.toNat = item.2 + 1 := by
    change wanted.2.1.toNat = _
    rw [priority, BitVec.toNat_ofNat, Nat.mod_eq_of_lt (by omega)]
  have isResult : (rootFilter wanted).result others frame = some (some (placeClass item.2)) := by
    rw [result_rootFilter isApplied, if_pos selects]
  have isTried : rootFilter wanted ∈ limiter.appliedTree.tried frame :=
    mem_tried_iff.mpr ⟨item, isItem, wanted, isApplied, rfl, isFor⟩
  suffices least : (sortByKey (fun filter : TcFilter => filter.priority.toNat)
      (limiter.appliedTree.tried frame)).findSome? (fun filter => filter.result others frame) =
      some (some (placeClass item.2)) by
    rw [TcTree.selected, least, Option.join_some]
  refine findSome?_sortByKey isTried isResult ?_
  intro filter isOtherTried result isOtherResult
  obtain ⟨other, isOther, otherWanted, otherApplied, rfl, otherFor⟩ := mem_tried_iff.mp isOtherTried
  rw [result_rootFilter otherApplied] at isOtherResult
  by_cases otherSelects : otherWanted.2.2.writeOptions.selects frame = true
  · rw [if_pos otherSelects] at isOtherResult
    cases isOtherResult
    rcases matches_of_selects isIp otherApplied otherFor otherSelects with
      alsoMatches | ⟨filtersPorts, ipv4⟩
    · left
      rw [only other isOther alsoMatches]
    · rcases Nat.lt_trichotomy other.2 item.2 with before | same | behind
      · rw [noPortsBefore ipv4 other isOther before] at filtersPorts
        cases filtersPorts
      · left
        rw [same]
      · right
        have otherInside := snd_lt_of_mem_zipIdx isOther
        change (rootFilter wanted).priority.toNat < otherWanted.2.1.toNat
        rw [first]
        rcases (appliedFilters_spec otherApplied).2 with isPrio | isPrio
        · rw [isPrio, BitVec.toNat_ofNat, Nat.mod_eq_of_lt (by omega)]
          omega
        · rw [isPrio, BitVec.toNat_ofNat, Nat.mod_eq_of_lt (by omega)]
          omega
  · rw [if_neg otherSelects] at isOtherResult
    cases isOtherResult

theorem leafClass_rule (few : limiter.rules.length < 100) (isItem : item ∈ limiter.rules.zipIdx) :
    limiter.appliedTree.leafClass (placeClass item.2) =
      some (limiter.ruleSlot builtFilters item).tcClass := by
  have inside := snd_lt_of_mem_zipIdx isItem
  have small : item.2 ≤ 1000 := by omega
  have noClasses : limiter.appliedTree.classes.any (·.parent = placeClass item.2) = false :=
    slot_has_no_classes small
  have distinct : (limiter.appliedTree.classes.map (·.handle)).Nodup :=
    classHandles_nodup (inPlace_slots few)
  rw [TcTree.leafClass, noClasses, if_neg Bool.false_ne_true, lookupBy_eq_some_iff distinct]
  refine ⟨mem_cons_of_mem _ (mem_map_of_mem ?_), rfl⟩
  exact mem_append_left _ (mem_map_of_mem isItem)

/-- The class has the rate and the ceiling of the rule. -/
def IsClassOf (item : HostRule × Nat) (tcClass : TcClass) : Prop :=
  tcClass.handle = placeClass item.2 ∧ htbClassOptions tcClass = some
      { rate := item.1.rate.bytesPerSec
        ceil := (item.1.ceil.getD item.1.rate).bytesPerSec }

def IsDefaultClass (limiter : PerHostLimiter) (tcClass : TcClass) : Prop :=
  tcClass.handle = placeClass limiter.rules.length ∧ htbClassOptions tcClass = some
      { rate := limiter.defaultRate.bytesPerSec
        ceil := limiter.defaultRate.bytesPerSec }

/-- A packet of one rule is queued in the class of the rule, and one of no rule
in that of the default rate. -/
def PerHostLimiter.QueuesAsDeclared
    (limiter : PerHostLimiter) (ifindex : BitVec 32) (frame : Packet)
    (packet : IpPacket) : Prop :=
  ∃ tree, Succeeds limiter.apply ⟨ifindex, none⟩ () ⟨ifindex, some tree⟩ ∧
    (∀ item, limiter.OnlyMatch packet item →
      ∃ tcClass, tree.queue (fun _ _ => none) frame = some tcClass ∧ IsClassOf item tcClass) ∧
    ((∀ item ∈ limiter.rules.zipIdx, ¬ item.1.match_.Matches packet) →
      ∃ tcClass, tree.queue (fun _ _ => none) frame = some tcClass ∧ IsDefaultClass limiter tcClass)

/-- A limit for a thousand ports and one for an address. -/
def portsLimiter : PerHostLimiter where
  dev := "eth0"
  defaultRate := ⟨1000⟩
  rules := [
    { match_ := .portRange 1000 2000, rate := ⟨100⟩, ceil := none },
    { match_ := .ip (.v4 0x0A000001), rate := ⟨200⟩, ceil := none }]
  latency := none

def portsPacket : IpPacket where
  addresses := .v4 0x0A000002 0x0A000003
  tos := 0
  ttl := 64
  transport := .tcp 40000 1500 0

def portsFrame : Packet where
  srcMac := 1
  dstMac := 2
  vlan := none
  network := .ip portsPacket

/-- A range of more than eleven ports has no filters, so its packets are not in
the class of the rule. -/
theorem not_queuesAsDeclared_ports : ¬ portsLimiter.QueuesAsDeclared 2 portsFrame portsPacket := by
  rintro ⟨tree, applies, matched, _⟩
  have same := Ends.unique ⟨(), applies⟩ ⟨(), apply_succeeds (by decide) none⟩
  cases same
  have onlyMatch : portsLimiter.OnlyMatch portsPacket
      ({ match_ := .portRange 1000 2000, rate := ⟨100⟩, ceil := none }, 0) := by
    refine ⟨mem_cons_self, ⟨1500, rfl, by decide, by decide⟩, ?_⟩
    intro other isOther isMatched
    rcases mem_pair.mp isOther with rfl | rfl
    · rfl
    · have differ : dstAddr portsPacket ≠ .v4 0x0A000001 := by decide
      exact absurd isMatched differ
  obtain ⟨tcClass, queued, isClass, _⟩ := matched _ onlyMatch
  have inOther : (portsLimiter.appliedTree.queue (fun _ _ => none)
      portsFrame).map (·.handle) = some (placeClass 1) := by
    decide +kernel
  have isPlace : (portsLimiter.appliedTree.queue (fun _ _ => none)
      portsFrame).map (·.handle) = some (placeClass 0) := by
    rw [← isClass]
    exact congrArg (Option.map (·.handle)) queued
  exact absurd (inOther.symm.trans isPlace) (by decide)

/-- A packet for which one rule is declared is queued in the class of the rule,
with its rate and ceiling, when the rule has filters for the packet and, for an
IPv4 packet, no rule before it has filters on ports. -/
theorem queue_of_onlyMatch (limiter : PerHostLimiter) (few : limiter.rules.length < 100)
    (ifindex : BitVec 32) (before : Option TcTree)
    (others : String → Packet → Option (Option TcHandle)) (frame : Packet) (packet : IpPacket)
    (isIp : frame.network = .ip packet) (item : HostRule × Nat)
    (onlyMatch : limiter.OnlyMatch packet item)
    (hasFilters : item.1.match_.HasFilters packet)
    (noPortsBefore : isIpv4 packet = true → ∀ other ∈ limiter.rules.zipIdx, other.2 < item.2 →
        other.1.match_.filtersPorts = false) :
    ∃ tree, Succeeds limiter.apply ⟨ifindex, before⟩ () ⟨ifindex, some tree⟩ ∧
      ∃ tcClass, tree.queue others frame = some tcClass ∧ IsClassOf item tcClass := by
  refine ⟨limiter.appliedTree, apply_succeeds few before,
    (limiter.ruleSlot builtFilters item).tcClass, ?_, rfl, ?_⟩
  · rw [TcTree.queue, selected_of_onlyMatch few isIp onlyMatch hasFilters noPortsBefore,
      Option.bind_some, leafClass_rule few onlyMatch.1, Option.some_or]
  · rw [htbClassOptions]
    exact congrArg some (parseHtbClassOptions_writeOptions (PerHostLimiter.ruleConfig item.1))

/-- The same rules, with the address first. -/
def addressLimiter : PerHostLimiter :=
  { portsLimiter with rules := portsLimiter.rules.reverse }

/-- A UDP packet to the address. -/
def addressPacket : IpPacket where
  addresses := .v4 0x0A000002 0x0A000001
  tos := 0
  ttl := 64
  transport := .udp 5000 53

/-- The packet is in the class of the first rule; one that no filter selects would be
in that of the second. -/
theorem queue_of_address : ∃ tree, Succeeds addressLimiter.apply ⟨2, none⟩ () ⟨2, some tree⟩ ∧
      ∃ tcClass, tree.queue (fun _ _ => none)
          { portsFrame with network := .ip addressPacket } = some tcClass ∧
        IsClassOf
          ({ match_ := .ip (.v4 0x0A000001), rate := ⟨200⟩, ceil := none }, 0)
          tcClass := by
  have onlyMatch : addressLimiter.OnlyMatch addressPacket
      ({ match_ := .ip (.v4 0x0A000001), rate := ⟨200⟩, ceil := none }, 0) := by
    refine ⟨mem_cons_self, rfl, ?_⟩
    intro other isOther isMatched
    rcases mem_pair.mp isOther with rfl | rfl
    · rfl
    · obtain ⟨number, isPort, least, _⟩ := isMatched
      cases isPort
      exact absurd least (by decide)
  exact queue_of_onlyMatch addressLimiter (by decide) 2 none _ _ addressPacket rfl _ onlyMatch
    trivial fun _ _ _ earlier => absurd earlier (Nat.not_lt_zero _)

/-!
## The two build paths

`apply` and `reconcile` build the same classes and leaves, and the same filters
but for ranges of ports, of which only `apply` makes filters.
-/

namespace HostMatch

def isRange : HostMatch → Bool
  | .portRange _ _ => true
  | _ => false

theorem isRange_eq_true
    {match_ : HostMatch}
    (range : match_.isRange = true) : ∃ start last, match_ = .portRange start last := by
  cases match_ with
  | portRange start last => exact ⟨start, last, rfl⟩
  | ip _ | subnet _ _ | port _ | srcIp _ | srcSubnet _ _ => cases range

end HostMatch

/-- The filter is at the priority of a rule for a range of ports. -/
def PerHostLimiter.isRangeFilter (limiter : PerHostLimiter) (filter : TcFilter) : Bool :=
  limiter.rules.zipIdx.any fun item =>
    item.1.match_.isRange && filter.priority = BitVec.ofNat 16 (item.2 + 1)

/-- Both paths build one tree, and `reconcile` finds nothing to do in it. -/
def PerHostLimiter.PathsAgree (limiter : PerHostLimiter) (ifindex : BitVec 32) : Prop :=
  ∃ built, (∀ tree, Succeeds limiter.apply ⟨ifindex, tree⟩ () ⟨ifindex, some built⟩) ∧
    Ends limiter.reconcile ⟨ifindex, none⟩ ⟨ifindex, some built⟩ ∧
    ∃ report, Succeeds limiter.reconcile ⟨ifindex, some built⟩ report ⟨ifindex, some built⟩ ∧
      report.isNoop = true

variable {limiter : PerHostLimiter} {ifindex : BitVec 32}

variable {item : HostRule × Nat}

theorem builtFilters_of_not_range
    (noRange : item.1.match_.isRange = false) : builtFilters item = reconciledFilters item := by
  rw [builtFilters, reconciledFilters, appliedFilters]
  cases isMatch : item.1.match_ with
  | portRange start last =>
      rw [isMatch] at noRange
      cases noRange
  | ip _ | subnet _ _ | port _ | srcIp _ | srcSubnet _ _ => rfl

theorem reconciledFilters_of_range
    (range : item.1.match_.isRange = true) : reconciledFilters item = [] := by
  obtain ⟨start, last, isMatch⟩ := HostMatch.isRange_eq_true range
  rw [reconciledFilters, wantedFilters, isMatch]
  rfl

theorem priority_of_range
    (range : item.1.match_.isRange = true) {filter : TcFilter}
    (member : filter ∈ builtFilters item) : filter.priority = BitVec.ofNat 16 (item.2 + 1) := by
  obtain ⟨start, last, isMatch⟩ := HostMatch.isRange_eq_true range
  obtain ⟨wanted, isApplied, rfl⟩ := mem_map.mp member
  rw [appliedFilters] at isApplied
  simp only [isMatch] at isApplied
  by_cases short : last - start ≤ 10
  · rw [if_pos short, mem_map] at isApplied
    obtain ⟨port, _, rfl⟩ := isApplied
    rfl
  · rw [if_neg short] at isApplied
    cases isApplied

theorem filters_but_for_ranges (few : limiter.rules.length < 100) :
    (limiter.rules.zipIdx.flatMap builtFilters).filter (!limiter.isRangeFilter ·) =
      limiter.rules.zipIdx.flatMap reconciledFilters := by
  rw [filter_flatMap]
  refine flatMap_congr fun item isItem => ?_
  cases range : item.1.match_.isRange with
  | true =>
      rw [reconciledFilters_of_range range, filter_eq_nil_iff]
      intro filter member kept
      have isRange : limiter.isRangeFilter filter = true :=
        any_eq_true.mpr ⟨item, isItem, by simp [range, priority_of_range range member]⟩
      rw [isRange] at kept
      cases kept
  | false =>
      rw [← builtFilters_of_not_range range, filter_eq_self]
      intro filter member
      rw [Bool.not_eq_true', PerHostLimiter.isRangeFilter, any_eq_false]
      intro other isOther isIts
      obtain ⟨otherRange, samePriority⟩ := Bool.and_eq_true_iff.mp isIts
      obtain ⟨wanted, isApplied, rfl⟩ := mem_map.mp member
      have inside := snd_lt_of_mem_zipIdx isItem
      have otherInside := snd_lt_of_mem_zipIdx isOther
      by_cases places : item.2 = other.2
      · rw [eq_of_place isItem isOther places, otherRange] at range
        cases range
      · exact priority_ne (by omega) (by omega) places (appliedFilters_spec isApplied).2
          (.inl (of_decide_eq_true samePriority)) rfl

/-- A limit for two ports. -/
def rangeLimiter : PerHostLimiter where
  dev := "eth0"
  defaultRate := ⟨1000⟩
  rules := [
    { match_ := .portRange 80 81, rate := ⟨100⟩, ceil := none }]
  latency := none

end Nlink.Ratelimit
