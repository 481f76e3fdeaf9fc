import Mathlib.Algebra.BigOperators.Group.List.Defs
import Nlink.Addr
import Nlink.GenlRequest
import Nlink.NetlinkAttrCut

namespace Nlink.NexthopGroups

open Foundation Netlink List Writer
open Nlink.Addr (IpAddr)

/-!
# Nexthop groups

A group is built with a weight for each member, the kernel stores it, and it is
parsed from the kernel's reply.  The kernel's `struct nexthop_grp` holds the
weight less one, and its timers count clock ticks.
-/

namespace nha

def ID : Nat := 1
def GROUP : Nat := 2
def GROUP_TYPE : Nat := 3
def BLACKHOLE : Nat := 4
def OIF : Nat := 5
def GATEWAY : Nat := 6
def FDB : Nat := 11
def RES_GROUP : Nat := 12

end nha

namespace nhaResGroup

def BUCKETS : Nat := 1
def IDLE_TIMER : Nat := 2
def UNBALANCED_TIMER : Nat := 3

end nhaResGroup

inductive NexthopGroupType where
  | multipath
  | resilient
  deriving DecidableEq

namespace NexthopGroupType

def ofU16 (val : BitVec 16) : NexthopGroupType :=
  if val = 1 then .resilient else .multipath

def toU16 : NexthopGroupType → BitVec 16
  | .multipath => 0
  | .resilient => 1

@[simp]
theorem ofU16_toU16 (groupType : NexthopGroupType) : ofU16 groupType.toU16 = groupType := by
  cases groupType <;> rfl

end NexthopGroupType

structure NhMsg where
  nhFamily : BitVec 8
  nhScope : BitVec 8
  nhProtocol : BitVec 8
  resvd : BitVec 8
  nhFlags : BitVec 32

structure NexthopGrp where
  id : BitVec 32
  weight : BitVec 8
  resvd1 : BitVec 8
  resvd2 : BitVec 16

def NexthopGrp.new (id : BitVec 32) (weight : BitVec 8) : NexthopGrp :=
  { id := id, weight := weight, resvd1 := 0, resvd2 := 0 }

structure ResilientParams where
  buckets : BitVec 16
  idleTimer : BitVec 32
  unbalancedTimer : BitVec 32

structure NexthopGroupMember where
  id : BitVec 32
  weight : BitVec 8

structure Nexthop where
  id : BitVec 32
  gateway : Option IpAddr
  ifindex : Option (BitVec 32)
  family : BitVec 8
  flags : BitVec 32
  protocol : BitVec 8
  scope : BitVec 8
  blackhole : Bool
  fdb : Bool
  group : Option (List NexthopGroupMember)
  groupType : Option NexthopGroupType
  resilient : Option ResilientParams

structure NexthopGroupBuilder where
  id : BitVec 32
  groupType : NexthopGroupType
  members : List (BitVec 32 × BitVec 8)
  buckets : Option (BitVec 16)
  idleTimer : Option (BitVec 32)
  unbalancedTimer : Option (BitVec 32)
  protocol : Option (BitVec 8)

section Code

variable (order : ByteOrder)

def NhMsg.layout : FixedLayout NhMsg :=
  ((FixedLayout.number order 1).pair <| (FixedLayout.number order 1).pair <|
    (FixedLayout.number order 1).pair <| (FixedLayout.number order 1).pair <|
    FixedLayout.number order 4).via
    (fun (family, scope, protocol, resvd, flags) => ⟨family, scope, protocol, resvd, flags⟩)
    (fun msg => (msg.nhFamily, msg.nhScope, msg.nhProtocol, msg.resvd, msg.nhFlags))
    fun _ => rfl

def NexthopGrp.layout : FixedLayout NexthopGrp :=
  ((FixedLayout.number order 4).pair <| (FixedLayout.number order 1).pair <|
    (FixedLayout.number order 1).pair <| FixedLayout.number order 2).via
    (fun (id, weight, resvd1, resvd2) => ⟨id, weight, resvd1, resvd2⟩)
    (fun grp => (grp.id, grp.weight, grp.resvd1, grp.resvd2))
    fun _ => rfl

/-!
## Parsing
-/

/-- One attribute of the parameters of a resilient group. -/
def ResilientParams.addAttr (params : ResilientParams) (attr : Attribute) : ResilientParams :=
  if attr.1 = nhaResGroup.BUCKETS ∧ 2 ≤ attr.2.length then
    { params with buckets := readU16 order attr.2 }
  else if attr.1 = nhaResGroup.IDLE_TIMER ∧ 4 ≤ attr.2.length then
    { params with idleTimer := readU32 order attr.2 }
  else if attr.1 = nhaResGroup.UNBALANCED_TIMER ∧ 4 ≤ attr.2.length then
    { params with unbalancedTimer := readU32 order attr.2 }
  else
    params

def parseMembers (payload : List UInt8) : List NexthopGroupMember :=
  ((NexthopGrp.layout order).readAll payload).map fun grp => ⟨grp.id, grp.weight⟩

def parseGateway (payload : List UInt8) : Option IpAddr :=
  if payload.length = 4 then
    some (.v4 (Ipv4Addr.fromOctets payload))
  else if payload.length = 16 then
    some (.v6 (Ipv6Addr.fromOctets payload))
  else
    none

def Nexthop.addAttr (nexthop : Nexthop) (attr : Attribute) : Nexthop :=
  if attr.1 = nha.ID ∧ 4 ≤ attr.2.length then
    { nexthop with id := readU32 order attr.2 }
  else if attr.1 = nha.GATEWAY then
    { nexthop with gateway := parseGateway attr.2 }
  else if attr.1 = nha.OIF ∧ 4 ≤ attr.2.length then
    { nexthop with ifindex := some (readU32 order attr.2) }
  else if attr.1 = nha.BLACKHOLE then
    { nexthop with blackhole := true }
  else if attr.1 = nha.FDB then
    { nexthop with fdb := true }
  else if attr.1 = nha.GROUP then
    if parseMembers order attr.2 = [] then
      nexthop
    else
      { nexthop with group := some (parseMembers order attr.2) }
  else if attr.1 = nha.GROUP_TYPE ∧ 2 ≤ attr.2.length then
    { nexthop with groupType := some (.ofU16 (readU16 order attr.2)) }
  else if attr.1 = nha.RES_GROUP then
    { nexthop with
      resilient := some ((attrIter order attr.2).foldl (ResilientParams.addAttr order) ⟨0, 0, 0⟩) }
  else
    nexthop

/-- A nexthop before any attribute is read. -/
def Nexthop.ofHeader (nhmsg : NhMsg) : Nexthop where
  id := 0
  gateway := none
  ifindex := none
  family := nhmsg.nhFamily
  flags := nhmsg.nhFlags
  protocol := nhmsg.nhProtocol
  scope := nhmsg.nhScope
  blackhole := false
  fdb := false
  group := none
  groupType := none
  resilient := none

/-- `Nexthop::parse`. -/
def Nexthop.parse (data : List UInt8) : Except Error Nexthop :=
  match (NhMsg.layout order).fromPrefix? data with
  | none => .error (.truncated 8 data.length)
  | some nhmsg =>
      .ok ((attrIter order (data.drop 8)).foldl (Nexthop.addAttr order) (.ofHeader nhmsg))

/-!
## Building
-/

/-- The parameters of a resilient group that are set. -/
def NexthopGroupBuilder.resGroup (self : NexthopGroupBuilder) : Writer order :=
  .all [
    .whenSome self.buckets fun buckets => .attr nhaResGroup.BUCKETS (order.toBytes 2 buckets.toNat),
    .whenSome self.idleTimer fun idle => .attr nhaResGroup.IDLE_TIMER (order.toBytes 4 idle.toNat),
    .whenSome self.unbalancedTimer fun unbal =>
      .attr nhaResGroup.UNBALANCED_TIMER (order.toBytes 4 unbal.toNat)]

/-- What `build` appends behind the header. -/
def NexthopGroupBuilder.writer (self : NexthopGroupBuilder) : Writer order :=
  .all [
    .u32 nha.ID self.id,
    .attr nha.GROUP_TYPE (order.toBytes 2 self.groupType.toU16.toNat),
    .attr nha.GROUP (self.members.flatMap fun (nhId, weight) =>
      (NexthopGrp.layout order).write (.new nhId weight)),
    .when (self.groupType = .resilient ∧
        (self.buckets.isSome ∨ self.idleTimer.isSome ∨ self.unbalancedTimer.isSome))
      (.nest nha.RES_GROUP (self.resGroup order))]

/-- `NexthopGroupBuilder::build`. -/
def NexthopGroupBuilder.build (self : NexthopGroupBuilder) (msgType flags : Nat) :
    Except Error MessageBuilder :=
  if self.members.isEmpty then
    .error (.invalidMessage "nexthop group must have at least one member")
  else
    let nhmsg : NhMsg :=
      { nhFamily := 0, nhScope := 0, nhProtocol := self.protocol.getD 4, resvd := 0, nhFlags := 0 }
    .ok ((self.writer order).write
      ((MessageBuilder.new order msgType flags).appendBytes ((NhMsg.layout order).write nhmsg)))

end Code

/-!
## The kernel
-/

namespace Kernel

/-- The ticks of a second. -/
def USER_HZ : Nat := 100

/-- The parameters of a resilient group, with timers in ticks. -/
structure ResGroup where
  buckets : BitVec 16
  idleTicks : BitVec 32
  unbalancedTicks : BitVec 32

/-- A group as it is stored. -/
structure Group where
  id : BitVec 32
  protocol : BitVec 8
  groupType : BitVec 16
  entries : List NexthopGrp
  resilient : Option ResGroup

/-- The traffic of an entry, in parts. -/
def share (entry : NexthopGrp) : Nat :=
  entry.weight.toNat + 1

variable (order : ByteOrder) (defaults : ResGroup)

/-- The parameters that a request sets; the others are the kernel's own. -/
def resGroup (attrs : List Attribute) : ResGroup where
  buckets := ((lastOf attrs nhaResGroup.BUCKETS).map (readU16 order)).getD defaults.buckets
  idleTicks := ((lastOf attrs nhaResGroup.IDLE_TIMER).map (readU32 order)).getD defaults.idleTicks
  unbalancedTicks :=
    ((lastOf attrs nhaResGroup.UNBALANCED_TIMER).map (readU32 order)).getD defaults.unbalancedTicks

/-- What `RTM_NEWNEXTHOP` stores of a group's request, unless it is refused. -/
def newNexthop (request : MessageBuilder) : Option Group := do
  let attrs := attrIter order (request.buf.drop 24)
  let id ← lastOf attrs nha.ID
  let grp ← lastOf attrs nha.GROUP
  if grp.length = 0 ∨ grp.length % 8 ≠ 0 then
    none
  else
    let groupType := ((lastOf attrs nha.GROUP_TYPE).map (readU16 order)).getD 0
    let res := attrIter order ((lastOf attrs nha.RES_GROUP).getD [])
    return {
      id := readU32 order id
      protocol := readU8 (request.buf.drop 18)
      groupType := groupType
      entries := (NexthopGrp.layout order).readAll grp
      resilient := if groupType = 1 then some (resGroup order defaults res) else none }

/-- The attributes with which `RTM_GETNEXTHOP` is answered. -/
def Group.writer (group : Group) : Writer order :=
  .all [
    .u32 nha.ID group.id,
    .u16 nha.GROUP_TYPE group.groupType,
    .attr nha.GROUP (group.entries.flatMap (NexthopGrp.layout order).write),
    .whenSome group.resilient fun res =>
      .nest nha.RES_GROUP (.all [
        .u16 nhaResGroup.BUCKETS res.buckets,
        .u32 nhaResGroup.IDLE_TIMER res.idleTicks,
        .u32 nhaResGroup.UNBALANCED_TIMER res.unbalancedTicks])]

/-- The reply behind its message header. -/
def Group.reply (group : Group) : List UInt8 :=
  (NhMsg.layout order).write ⟨0, 0, group.protocol, 0, 0⟩ ++
    encodeAll order (group.writer order).attrs

end Kernel

/-!
## What is stored and read back
-/

section Written

variable (order : ByteOrder) (defaults : Kernel.ResGroup) (self : NexthopGroupBuilder)

def NexthopGroupBuilder.stored : Kernel.Group where
  id := self.id
  protocol := self.protocol.getD 4
  groupType := self.groupType.toU16
  entries := self.members.map fun (nhId, weight) => .new nhId weight
  resilient :=
    if self.groupType = .resilient then
      some
        { buckets := self.buckets.getD defaults.buckets
          idleTicks := self.idleTimer.getD defaults.idleTicks
          unbalancedTicks := self.unbalancedTimer.getD defaults.unbalancedTicks }
    else
      none

theorem length_entries (entries : List NexthopGrp) :
    (entries.flatMap (NexthopGrp.layout order).write).length = entries.length * 8 :=
  (NexthopGrp.layout order).length_flatMap_write entries

theorem readAll_entries (entries : List NexthopGrp) :
    (NexthopGrp.layout order).readAll (entries.flatMap (NexthopGrp.layout order).write) =
      entries :=
  (NexthopGrp.layout order).readAll_flatMap (Nat.succ_pos 7) entries

theorem flatMap_members :
    (self.members.flatMap fun (nhId, weight) =>
        (NexthopGrp.layout order).write (.new nhId weight)) =
      (self.stored defaults).entries.flatMap (NexthopGrp.layout order).write := by
  rw [NexthopGroupBuilder.stored, flatMap_map]

attribute [local simp] nha.ID nha.GROUP nha.GROUP_TYPE nha.RES_GROUP nhaResGroup.BUCKETS
  nhaResGroup.IDLE_TIMER nhaResGroup.UNBALANCED_TIMER NexthopGroupBuilder.writer

theorem small_resGroup : (self.resGroup order).Small 33 := by
  refine Writer.Small.all 11 ?_ (Nat.le_refl 33)
  simp [small_attr]

variable {self}

theorem small_writer (few : self.members.length ≤ 8191) :
    ∃ size, (self.writer order).Small size := by
  have members : (self.members.flatMap fun (nhId, weight) =>
      (NexthopGrp.layout order).write (.new nhId weight)).length ≤ 65528 := by
    rw [flatMap_members order ⟨0, 0, 0⟩, length_entries, NexthopGroupBuilder.stored, length_map]
    omega
  have type : (Writer.attr nha.GROUP_TYPE (order.toBytes 2 self.groupType.toU16.toNat) :
      Writer order).Small 9 :=
    small_attr (by decide) (by simp) (by decide)
  have group : (Writer.attr nha.GROUP (self.members.flatMap fun (nhId, weight) =>
      (NexthopGrp.layout order).write (.new nhId weight)) : Writer order).Small 65535 :=
    small_attr (by decide) (by omega) (by decide)
  have resGroup : (nest nha.RES_GROUP (self.resGroup order)).Small 40 :=
    (small_resGroup order self).nest (by decide) (by decide)
  refine ⟨_, (small_u32 (by decide) self.id (Nat.le_refl 11)).andThen <| type.andThen <|
    group.andThen <| (Writer.small_when.mpr fun _ => resGroup).andThen (small_nothing 0)⟩

/-- The request behind its message header. -/
theorem buf_build {msgType flags : Nat} {request : MessageBuilder}
    (isBuilt : self.build order msgType flags = .ok request) :
    request.buf = (NlMsgHdr.new msgType flags).asBytes order ++
      ((NhMsg.layout order).write ⟨0, 0, self.protocol.getD 4, 0, 0⟩ ++
        encodeAll order (self.writer order).attrs) := by
  rw [NexthopGroupBuilder.build] at isBuilt
  split at isBuilt
  · cases isBuilt
  · cases isBuilt
    exact (self.writer order).buf_behind msgType flags ⟨2, (NhMsg.layout order).length_write _⟩

theorem resGroup_seen : Kernel.resGroup order defaults (self.resGroup order).seen =
    { buckets := self.buckets.getD defaults.buckets
      idleTicks := self.idleTimer.getD defaults.idleTicks
      unbalancedTicks := self.unbalancedTimer.getD defaults.unbalancedTicks } := by
  simp only [Kernel.resGroup, lastOf_seen, NexthopGroupBuilder.resGroup]
  cases self.buckets <;> cases self.idleTimer <;> cases self.unbalancedTimer <;>
    simp

/-- The parameters that the kernel finds; without a nest it uses its own. -/
theorem resGroup_written (isType : self.groupType = .resilient) :
    Kernel.resGroup order defaults
        (attrIter order (((self.writer order).found nha.RES_GROUP).getD [])) =
      { buckets := self.buckets.getD defaults.buckets
        idleTicks := self.idleTimer.getD defaults.idleTicks
        unbalancedTicks := self.unbalancedTimer.getD defaults.unbalancedTicks } := by
  have res : (self.writer order).found nha.RES_GROUP =
      if self.buckets.isSome ∨ self.idleTimer.isSome ∨ self.unbalancedTimer.isSome then
        some (encodeAll order (self.resGroup order).attrs)
      else
        none := by
    simp [isType]
  rw [res]
  split
  · rw [Option.getD_some, attrIter_payload (small_resGroup order self), resGroup_seen]
  · rename_i unset
    have unset : self.buckets = none ∧ self.idleTimer = none ∧ self.unbalancedTimer = none := by
      simpa using unset
    rw [unset.1, unset.2.1, unset.2.2]
    rfl

theorem newNexthop_build (atLeastOne : self.members ≠ []) (few : self.members.length ≤ 8191)
    {msgType flags : Nat} {request : MessageBuilder}
    (isBuilt : self.build order msgType flags = .ok request) :
    Kernel.newNexthop order defaults request = some (self.stored defaults) := by
  obtain ⟨size, small⟩ := small_writer order few
  have shape := buf_build order isBuilt
  have header : ((NlMsgHdr.new msgType flags).asBytes order ++
      (NhMsg.layout order).write ⟨0, 0, self.protocol.getD 4, 0, 0⟩).length = 24 := by
    rw [length_append, asBytes_length]
    exact congrArg (16 + ·) ((NhMsg.layout order).length_write _)
  have attrs : attrIter order (request.buf.drop 24) = (self.writer order).seen := by
    rw [shape, ← List.append_assoc, drop_left' header, attrIter_payload small]
  have protocol : readU8 (request.buf.drop 18) = self.protocol.getD 4 := by
    rw [shape, show 18 = 16 + 2 from rfl, ← drop_drop, drop_left' (asBytes_length order _)]
    cases order <;> simp [NhMsg.layout, FixedLayout.via, FixedLayout.pair, FixedLayout.number,
      ByteOrder.toBytes, littleEndian, readU8]
  have grp : (self.writer order).found nha.GROUP =
      some ((self.stored defaults).entries.flatMap (NexthopGrp.layout order).write) := by
    rw [← flatMap_members order defaults self]
    simp
  have len := length_entries order (self.stored defaults).entries
  have whole : ¬ (((self.stored defaults).entries.flatMap
      (NexthopGrp.layout order).write).length = 0 ∨ ((self.stored defaults).entries.flatMap
        (NexthopGrp.layout order).write).length % 8 ≠ 0) := by
    have some := length_pos_iff.mpr atLeastOne
    rw [NexthopGroupBuilder.stored, length_map] at len
    rw [NexthopGroupBuilder.stored, len]
    omega
  have id : (self.writer order).found nha.ID = some (order.toBytes 4 self.id.toNat) := by simp
  have groupType : (self.writer order).found nha.GROUP_TYPE =
      some (order.toBytes 2 self.groupType.toU16.toNat) := by
    simp
  simp only [Kernel.newNexthop, attrs, lastOf_seen, id, grp, groupType, protocol,
    Option.bind_eq_bind, Option.bind_some, Option.map_some, Option.getD_some, if_neg whole,
    readU32_toBytes, readU16_toBytes, readAll_entries]
  refine congrArg some ?_
  rw [NexthopGroupBuilder.stored]
  congr 1
  cases isType : self.groupType with
  | multipath => rfl
  | resilient => exact congrArg some (resGroup_written order defaults isType)

end Written

section Reply

variable (order : ByteOrder) (group : Kernel.Group)

def Kernel.Group.shown : Nexthop where
  id := group.id
  gateway := none
  ifindex := none
  family := 0
  flags := 0
  protocol := group.protocol
  scope := 0
  blackhole := false
  fdb := false
  group := some (group.entries.map fun grp => ⟨grp.id, grp.weight⟩)
  groupType := some (.ofU16 group.groupType)
  resilient := group.resilient.map fun res => ⟨res.buckets, res.idleTicks, res.unbalancedTicks⟩

theorem small_replyResGroup (res : Kernel.ResGroup) :
    (Writer.all [.u16 nhaResGroup.BUCKETS res.buckets, .u32 nhaResGroup.IDLE_TIMER res.idleTicks,
      .u32 nhaResGroup.UNBALANCED_TIMER res.unbalancedTicks] : Writer order).Small 33 := by
  refine Writer.Small.all 11 ?_ (Nat.le_refl 33)
  simp [nhaResGroup.BUCKETS, nhaResGroup.IDLE_TIMER, nhaResGroup.UNBALANCED_TIMER]

theorem resilient_reply (res : Kernel.ResGroup) :
    (attrIter order (encodeAll order (Writer.all [.u16 nhaResGroup.BUCKETS res.buckets,
      .u32 nhaResGroup.IDLE_TIMER res.idleTicks,
      .u32 nhaResGroup.UNBALANCED_TIMER res.unbalancedTicks] : Writer order).attrs)).foldl
        (ResilientParams.addAttr order) ⟨0, 0, 0⟩ =
      ⟨res.buckets, res.idleTicks, res.unbalancedTicks⟩ := by
  rw [attrIter_payload (small_replyResGroup order res)]
  simp [Writer.seen, Writer.all, Writer.andThen, Writer.nothing, u16, u32,
    Attribute.masked, ResilientParams.addAttr, nhaResGroup.BUCKETS, nhaResGroup.IDLE_TIMER,
    nhaResGroup.UNBALANCED_TIMER, NLA_F_NET_BYTEORDER]

variable {group}

theorem small_reply (few : group.entries.length ≤ 8191) :
    ∃ size, (group.writer order).Small size := by
  have members := length_entries order group.entries
  have listed : (Writer.attr nha.GROUP (group.entries.flatMap (NexthopGrp.layout order).write) :
      Writer order).Small 65535 :=
    small_attr (by decide) (by omega) (by decide)
  refine ⟨_, (small_u32 (by decide) group.id (Nat.le_refl 11)).andThen <|
    (small_u16 (by decide) group.groupType (Nat.le_refl 9)).andThen <| listed.andThen <|
    (Writer.small_whenSome.mpr fun res _ =>
      (small_replyResGroup order res).nest (by decide) (by decide)).andThen
    (small_nothing 0)⟩

theorem parse_reply (atLeastOne : group.entries ≠ []) (few : group.entries.length ≤ 8191) :
    Nexthop.parse order (group.reply order) = .ok group.shown := by
  obtain ⟨size, small⟩ := small_reply order few
  have members : parseMembers order (group.entries.flatMap (NexthopGrp.layout order).write) =
      group.entries.map fun grp => ⟨grp.id, grp.weight⟩ := by
    rw [parseMembers, readAll_entries]
  have listed : group.entries.map (fun grp => (⟨grp.id, grp.weight⟩ : NexthopGroupMember)) ≠ [] :=
    map_eq_nil_iff.not.mpr atLeastOne
  have behind : (group.reply order).drop 8 = encodeAll order (group.writer order).attrs :=
    drop_left' ((NhMsg.layout order).length_write _)
  have header : (NhMsg.layout order).fromPrefix? (group.reply order) =
      some ⟨0, 0, group.protocol, 0, 0⟩ :=
    FixedLayout.fromPrefix?_write ..
  have shape : (group.writer order).seen =
      [(nha.ID, order.toBytes 4 group.id.toNat),
        (nha.GROUP_TYPE, order.toBytes 2 group.groupType.toNat),
        (nha.GROUP, group.entries.flatMap (NexthopGrp.layout order).write)] ++
      group.resilient.elim [] fun res =>
        [(nha.RES_GROUP, encodeAll order (Writer.all [.u16 nhaResGroup.BUCKETS res.buckets,
          .u32 nhaResGroup.IDLE_TIMER res.idleTicks,
          .u32 nhaResGroup.UNBALANCED_TIMER res.unbalancedTicks] : Writer order).attrs)] := by
    rw [Kernel.Group.writer]
    cases group.resilient with
    | none => rfl
    | some res => exact congrArg (fun nest => [_, _, _, nest]) (Attribute.masked_nested (by decide))
  rw [Nexthop.parse, header, behind, attrIter_payload small, shape]
  refine congrArg Except.ok (foldl_append.trans ?_)
  rw [Kernel.Group.shown]
  cases group.resilient with
  | none =>
      simp [Nexthop.addAttr, Nexthop.ofHeader, members, listed, nha.ID, nha.GROUP, nha.GROUP_TYPE,
        nha.GATEWAY, nha.OIF, nha.BLACKHOLE, nha.FDB]
  | some res =>
      simp [Nexthop.addAttr, Nexthop.ofHeader, members, listed, nha.ID, nha.GROUP, nha.GROUP_TYPE,
        nha.GATEWAY, nha.OIF, nha.BLACKHOLE, nha.FDB, nha.RES_GROUP]
      exact resilient_reply order res

end Reply

/-!
## What a builder declares
-/

/-- Each share is the part of all shares that its weight is of all weights. -/
def Proportional (shares weights : List Nat) : Prop :=
  List.Forall₂ (fun share weight => share * weights.sum = weight * shares.sum) shares weights

/-- What is declared is stored with its meaning and read back as it was declared. -/
structure Declares (declared : NexthopGroupBuilder) (group : Kernel.Group) (nexthop : Nexthop) :
    Prop where
  sameEntries : group.entries.map (·.id) = declared.members.map (·.1)
  shares : Proportional (group.entries.map Kernel.share) (declared.members.map (·.2.toNat))
  idle : ∀ seconds ∈ declared.idleTimer, ∃ res ∈ group.resilient,
    res.idleTicks.toNat = Kernel.USER_HZ * seconds.toNat
  unbalanced : ∀ seconds ∈ declared.unbalancedTimer, ∃ res ∈ group.resilient,
    res.unbalancedTicks.toNat = Kernel.USER_HZ * seconds.toNat
  sameId : nexthop.id = declared.id
  sameMembers : nexthop.group = some (declared.members.map fun (id, weight) => ⟨id, weight⟩)
  sameType : nexthop.groupType = some declared.groupType
  sameBuckets : ∀ buckets ∈ declared.buckets, ∃ params ∈ nexthop.resilient, params.buckets = buckets
  sameIdle : ∀ seconds ∈ declared.idleTimer, ∃ params ∈ nexthop.resilient,
    params.idleTimer = seconds
  sameUnbalanced : ∀ seconds ∈ declared.unbalancedTimer, ∃ params ∈ nexthop.resilient,
    params.unbalancedTimer = seconds

/-- The request is built and stored, and the reply for the group is parsed. -/
def Installed (order : ByteOrder) (defaults : Kernel.ResGroup) (msgType flags : Nat)
    (self : NexthopGroupBuilder) : Prop :=
  ∃ request group nexthop, self.build order msgType flags = .ok request ∧
    Kernel.newNexthop order defaults request = some group ∧
    Nexthop.parse order (group.reply order) = .ok nexthop ∧ Declares self group nexthop

theorem sum_succ (weights : List Nat) :
    (weights.map (· + 1)).sum = weights.sum + weights.length := by
  induction weights with
  | nil => rfl
  | cons weight rest ih =>
      rw [map_cons, sum_cons, ih, sum_cons, length_cons]
      omega

/-- One part more for each member keeps the proportions only of equal weights. -/
theorem proportional_succ_iff (weights : List Nat) :
    Proportional (weights.map (· + 1)) weights ↔
      ∀ first ∈ weights, ∀ second ∈ weights, first = second := by
  have each : Proportional (weights.map (· + 1)) weights ↔
      ∀ weight ∈ weights, weights.sum = weight * weights.length := by
    rw [Proportional, forall₂_map_left_iff, forall₂_same, sum_succ]
    refine forall₂_congr fun weight _ => ?_
    rw [Nat.succ_mul, Nat.mul_add, Nat.add_left_cancel_iff]
  rw [each]
  constructor
  · intro sums first isFirst second isSecond
    have positive : 0 < weights.length := length_pos_of_mem isFirst
    exact Nat.eq_of_mul_eq_mul_right positive
      ((sums first isFirst).symm.trans (sums second isSecond))
  · intro same weight member
    have isSum := sum_eq_card_nsmul weights weight fun other isOther =>
      same other isOther weight member
    rw [isSum]
    exact Nat.mul_comm _ _

section Installed

variable {order : ByteOrder} {defaults : Kernel.ResGroup} {self : NexthopGroupBuilder}
  {msgType flags : Nat}

theorem shares_stored :
    (self.stored defaults).entries.map Kernel.share =
      (self.members.map (·.2.toNat)).map (· + 1) := by
  rw [NexthopGroupBuilder.stored, map_map, map_map]
  rfl

/-- The payload of an attribute has no room for more. -/
theorem few_of_newNexthop {request : MessageBuilder} {group : Kernel.Group}
    (isStored : Kernel.newNexthop order defaults request = some group) :
    group.entries.length ≤ 8191 := by
  simp only [Kernel.newNexthop, Option.bind_eq_bind, Option.bind_eq_some_iff] at isStored
  obtain ⟨id, -, grp, isGrp, isStored⟩ := isStored
  split at isStored
  · cases isStored
  · cases isStored
    have short := (attrIter_payload_le order (mem_of_lastOf isGrp)).1
    change 4 + grp.length ≤ 65535 at short
    dsimp only
    rw [FixedLayout.length_readAll]
    change grp.length / 8 ≤ 8191
    omega

theorem proportional_stored_iff :
    Proportional ((self.stored defaults).entries.map Kernel.share) (self.members.map (·.2.toNat)) ↔
      ∀ first ∈ self.members, ∀ second ∈ self.members, first.2 = second.2 := by
  rw [shares_stored, proportional_succ_iff]
  simp only [forall_mem_map, BitVec.toNat_inj]

theorem ticks_eq_iff (seconds : BitVec 32) :
    seconds.toNat = Kernel.USER_HZ * seconds.toNat ↔ seconds = 0 := by
  rw [← BitVec.toNat_inj, Kernel.USER_HZ]
  change _ ↔ seconds.toNat = 0
  omega

theorem members_shown :
    (self.stored defaults).shown.group =
      some (self.members.map fun (id, weight) => ⟨id, weight⟩) := by
  rw [Kernel.Group.shown, NexthopGroupBuilder.stored, map_map]
  rfl

theorem entries_stored : (self.stored defaults).entries.map (·.id) = self.members.map (·.1) := by
  rw [NexthopGroupBuilder.stored, map_map]
  rfl

theorem resilient_stored (isType : self.groupType = .resilient) :
    (self.stored defaults).resilient = some
      { buckets := self.buckets.getD defaults.buckets
        idleTicks := self.idleTimer.getD defaults.idleTicks
        unbalancedTicks := self.unbalancedTimer.getD defaults.unbalancedTicks } :=
  if_pos isType

/-- What is set must be without effect on time, and needs a resilient group. -/
def TimesKept (self : NexthopGroupBuilder) : Prop :=
  match self.groupType with
  | .multipath => self.buckets = none ∧ self.idleTimer = none ∧ self.unbalancedTimer = none
  | .resilient =>
      (∀ seconds ∈ self.idleTimer, seconds = 0) ∧ ∀ seconds ∈ self.unbalancedTimer, seconds = 0

theorem timesKept_of_declares
    (declares : Declares self (self.stored defaults) (self.stored defaults).shown) :
    TimesKept self := by
  rw [TimesKept]
  cases isType : self.groupType with
  | multipath =>
      have noParams : (self.stored defaults).shown.resilient = none := by
        rw [Kernel.Group.shown, NexthopGroupBuilder.stored, isType]
        rfl
      have unset {α : Type} {β : ResilientParams → α → Prop} {value : Option α}
          (declared : ∀ found ∈ value,
            ∃ params ∈ (self.stored defaults).shown.resilient, β params found) :
          value = none := by
        cases value with
        | none => rfl
        | some found =>
            obtain ⟨params, isParams, -⟩ := declared found rfl
            rw [noParams] at isParams
            cases isParams
      exact ⟨unset declares.sameBuckets, unset declares.sameIdle, unset declares.sameUnbalanced⟩
  | resilient =>
      have isStored : (self.stored defaults).resilient = some _ := resilient_stored isType
      constructor
      · intro seconds isSet
        obtain ⟨res, isRes, ticks⟩ := declares.idle seconds isSet
        cases isStored.symm.trans isRes
        rw [show self.idleTimer = some seconds from isSet] at ticks
        exact (ticks_eq_iff seconds).mp ticks
      · intro seconds isSet
        obtain ⟨res, isRes, ticks⟩ := declares.unbalanced seconds isSet
        cases isStored.symm.trans isRes
        rw [show self.unbalancedTimer = some seconds from isSet] at ticks
        exact (ticks_eq_iff seconds).mp ticks

theorem declares_of_timesKept
    (same : ∀ first ∈ self.members, ∀ second ∈ self.members, first.2 = second.2)
    (kept : TimesKept self) :
    Declares self (self.stored defaults) (self.stored defaults).shown := by
  rw [TimesKept] at kept
  have sameType : (self.stored defaults).shown.groupType = some self.groupType :=
    congrArg some (NexthopGroupType.ofU16_toU16 self.groupType)
  cases isType : self.groupType with
  | multipath =>
      rw [isType] at kept
      obtain ⟨noBuckets, noIdle, noUnbalanced⟩ := kept
      refine ⟨entries_stored, proportional_stored_iff.mpr same, ?_, ?_, rfl, members_shown,
        sameType, ?_, ?_, ?_⟩
      all_goals simp [noBuckets, noIdle, noUnbalanced]
  | resilient =>
      rw [isType] at kept
      obtain ⟨idleKept, unbalancedKept⟩ := kept
      have isStored : (self.stored defaults).resilient = some _ := resilient_stored isType
      have isShown := congrArg (Option.map fun res : Kernel.ResGroup =>
        (⟨res.buckets, res.idleTicks, res.unbalancedTicks⟩ : ResilientParams)) isStored
      refine ⟨entries_stored, proportional_stored_iff.mpr same, fun seconds isSet => ?_,
        fun seconds isSet => ?_, rfl, members_shown, sameType, fun buckets isSet => ?_,
        fun seconds isSet => ?_, fun seconds isSet => ?_⟩
      · refine ⟨_, isStored, ?_⟩
        rw [show self.idleTimer = some seconds from isSet]
        exact (ticks_eq_iff seconds).mpr (idleKept seconds isSet)
      · refine ⟨_, isStored, ?_⟩
        rw [show self.unbalancedTimer = some seconds from isSet]
        exact (ticks_eq_iff seconds).mpr (unbalancedKept seconds isSet)
      · exact ⟨_, isShown, by rw [show self.buckets = some buckets from isSet]; rfl⟩
      · exact ⟨_, isShown, by rw [show self.idleTimer = some seconds from isSet]; rfl⟩
      · exact ⟨_, isShown, by rw [show self.unbalancedTimer = some seconds from isSet]; rfl⟩

/-- An installed group is short enough, and is the one that the builder's request
stores. -/
theorem stored_of_installed (atLeastOne : self.members ≠ [])
    (installed : Installed order defaults msgType flags self) :
    self.members.length ≤ 8191 ∧
      Declares self (self.stored defaults) (self.stored defaults).shown := by
  obtain ⟨request, group, nexthop, isBuilt, isStored, isParsed, declares⟩ := installed
  have sameLength : group.entries.length = self.members.length := by
    have lengths := congrArg List.length declares.sameEntries
    rwa [length_map, length_map] at lengths
  have few : self.members.length ≤ 8191 := sameLength ▸ few_of_newNexthop isStored
  cases (newNexthop_build order defaults atLeastOne few isBuilt).symm.trans isStored
  have notEmpty : (self.stored defaults).entries ≠ [] := map_eq_nil_iff.not.mpr atLeastOne
  have fewEntries : (self.stored defaults).entries.length ≤ 8191 := by
    rw [sameLength]
    exact few
  cases (parse_reply order notEmpty fewEntries).symm.trans isParsed
  exact ⟨few, declares⟩

/-- A group is installed and read back as declared exactly if its attribute has
room for the members, all weights are equal, and nothing is set that would be
taken for ticks or left out. -/
theorem installed_iff (atLeastOne : self.members ≠ []) :
    Installed order defaults msgType flags self ↔
      self.members.length ≤ 8191 ∧
      (∀ first ∈ self.members, ∀ second ∈ self.members, first.2 = second.2) ∧
      TimesKept self := by
  constructor
  · intro installed
    obtain ⟨few, declares⟩ := stored_of_installed atLeastOne installed
    exact ⟨few, proportional_stored_iff.mp declares.shares, timesKept_of_declares declares⟩
  · rintro ⟨few, same, kept⟩
    have notEmpty : (self.stored defaults).entries ≠ [] := map_eq_nil_iff.not.mpr atLeastOne
    have fewEntries : (self.stored defaults).entries.length ≤ 8191 := by
      rw [NexthopGroupBuilder.stored, length_map]
      exact few
    have isBuilt : ∃ request, self.build order msgType flags = .ok request := by
      rw [NexthopGroupBuilder.build, if_neg (by simpa using atLeastOne)]
      exact ⟨_, rfl⟩
    obtain ⟨request, isBuilt⟩ := isBuilt
    exact ⟨request, _, _, isBuilt, newNexthop_build order defaults atLeastOne few isBuilt,
      parse_reply order notEmpty fewEntries, declares_of_timesKept same kept⟩

/-- Two members with weights of two and one. -/
def weighted : NexthopGroupBuilder where
  id := 101
  groupType := .multipath
  members := [(1, 2), (2, 1)]
  buckets := none
  idleTimer := none
  unbalancedTimer := none
  protocol := none

/-- Two members with equal weights. -/
def ecmp : NexthopGroupBuilder :=
  { weighted with id := 100, members := [(1, 1), (2, 1)] }

theorem installed_ecmp : ecmp.members ≠ [] ∧ Installed .little ⟨32, 12000, 0⟩ 104 0x405 ecmp := by
  refine ⟨by decide, (installed_iff (by decide)).mpr ⟨by decide, ?_, rfl, rfl, rfl⟩⟩
  simp [ecmp]

theorem not_installed_weighted :
    weighted.members ≠ [] ∧ (weighted.members.map (·.1)).Nodup ∧
      (∀ member ∈ weighted.members, 1 ≤ member.2.toNat) ∧
      ¬ Installed .little ⟨32, 12000, 0⟩ 104 0x405 weighted := by
  refine ⟨by decide, by decide, by simp [weighted], fun installed => ?_⟩
  have declares := (stored_of_installed (by decide) installed).2
  have same := proportional_stored_iff.mp declares.shares
  exact absurd (same (1, 2) (by decide) (2, 1) (by decide)) (by decide)

end Installed

end Nlink.NexthopGroups
