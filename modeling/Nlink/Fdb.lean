import Mathlib.Data.Vector.Defs
import Nlink.GenlRequest
import Nlink.Neighbor

namespace Nlink.Fdb

open Foundation Netlink Neighbor Writer
open List hiding Vector
open Nlink.Addr (IpAddr isNotFound)

/-!
# Entries of a bridge

Entries are written as messages of the bridge family, read from the kernel's
dump, and flushed by a deletion for each entry that is not permanent.
-/

inductive NeighborState where
  | none
  | incomplete
  | reachable
  | stale
  | delay
  | probe
  | failed
  | noarp
  | permanent
  deriving DecidableEq

def NeighborState.ofU16 (val : BitVec 16) : NeighborState :=
  match val.toNat with
  | 0x01 => .incomplete
  | 0x02 => .reachable
  | 0x04 => .stale
  | 0x08 => .delay
  | 0x10 => .probe
  | 0x20 => .failed
  | 0x40 => .noarp
  | 0x80 => .permanent
  | _ => .none

namespace nud

def REACHABLE : BitVec 16 := 0x02
def STALE : BitVec 16 := 0x04
def NOARP : BitVec 16 := 0x40
def PERMANENT : BitVec 16 := 0x80

end nud

namespace ntf

def SELF : BitVec 8 := 0x02
def EXT_LEARNED : BitVec 8 := 0x10
def STICKY : BitVec 8 := 0x40
def ROUTER : BitVec 8 := 0x80

end ntf

abbrev Mac := Vector UInt8 6

structure FdbEntry where
  ifindex : BitVec 32
  mac : Mac
  vlan : Option (BitVec 16)
  dst : Option IpAddr
  vni : Option (BitVec 32)
  state : NeighborState
  flags : BitVec 8
  master : Option (BitVec 32)

/-- `FdbEntryBuilder`, with its interfaces left to be resolved. -/
structure FdbEntryBuilder where
  mac : Mac
  vlan : Option (BitVec 16)
  dst : Option IpAddr
  vni : Option (BitVec 32)
  permanent : Bool
  selfFlag : Bool
  externLearn : Bool
  sticky : Bool
  router : Bool

/-- `FdbEntry::from_neighbor`. -/
def FdbEntry.fromNeighbor (msg : NeighborMessage) : Option FdbEntry := do
  let lladdr ← msg.lladdr
  if six : lladdr.length = 6 then
    return {
      ifindex := msg.header.ndmIfindex
      mac := ⟨lladdr.toArray, six⟩
      vlan := msg.vlan
      dst := msg.destination
      vni := msg.vni
      state := .ofU16 msg.header.ndmState
      flags := msg.header.ndmFlags
      master := msg.master }
  else
    none

def FdbEntry.isPermanent (entry : FdbEntry) : Bool :=
  entry.state == .permanent

def FdbEntry.isDynamic (entry : FdbEntry) : Bool :=
  !entry.isPermanent

section Write

variable (order : ByteOrder) (self : FdbEntryBuilder)

def FdbEntryBuilder.state : BitVec 16 :=
  if self.permanent then nud.PERMANENT else nud.REACHABLE

def FdbEntryBuilder.flags : BitVec 8 :=
  (if self.selfFlag then ntf.SELF else 0) ||| (if self.externLearn then ntf.EXT_LEARNED else 0) |||
    (if self.sticky then ntf.STICKY else 0) ||| (if self.router then ntf.ROUTER else 0)

def FdbEntryBuilder.addWriter (masterIdx : Option (BitVec 32)) : Writer order :=
  .all [
    .attr 2 self.mac.toList,
    .whenSome masterIdx fun master => .u32 9 master,
    .whenSome self.vlan fun vlan => .u16 5 vlan,
    .whenSome self.dst fun dst => .attr 1 (octets dst),
    .whenSome self.vni fun vni => .u32 7 vni]

def FdbEntryBuilder.addHeader (ifindex : BitVec 32) : NdMsg :=
  ⟨AF_BRIDGE, 0, 0, ifindex, self.state, self.flags, 0⟩

/-- `FdbEntryBuilder::write_add`. -/
def FdbEntryBuilder.writeAdd (ifindex : BitVec 32) (masterIdx : Option (BitVec 32))
    (builder : MessageBuilder) : MessageBuilder :=
  (self.addWriter order masterIdx).write
    (builder.appendBytes ((NdMsg.layout order).write (self.addHeader ifindex)))

/-- `FdbEntryBuilder::write_delete`, which writes the address and the VLAN. -/
def writeDelete (mac : Mac) (vlan : Option (BitVec 16)) (ifindex : BitVec 32)
    (builder : MessageBuilder) : MessageBuilder :=
  (Writer.all [.attr 2 mac.toList, .whenSome vlan fun vlan => .u16 5 vlan] : Writer order).write
    (builder.appendBytes ((NdMsg.layout order).write ⟨AF_BRIDGE, 0, 0, ifindex, 0, 0, 0⟩))

end Write

/-!
## What is added is read back
-/

section ReadBack

variable (order : ByteOrder) (self : FdbEntryBuilder) (ifindex : BitVec 32)
  (masterIdx : Option (BitVec 32))

/-- The message's body is read as an entry with everything that was written. -/
def ReadsBack : Prop :=
  ∃ msg, NeighborMessage.fromBytes order
      ((self.writeAdd order ifindex masterIdx
        (MessageBuilder.new order 28 0x605)).buf.drop NLMSG_HDRLEN) = some msg ∧
    FdbEntry.fromNeighbor msg = some
      { ifindex := ifindex
        mac := self.mac
        vlan := self.vlan
        dst := self.dst
        vni := self.vni
        state := if self.permanent then .permanent else .reachable
        flags := self.flags
        master := masterIdx }

variable {order}

/-- A message of the bridge family and a writer is read attribute by attribute. -/
theorem fromBytes_written {writer : Writer order} {size : Nat} (small : writer.Small size)
    (header : NdMsg) (msgType flags : Nat) :
    NeighborMessage.fromBytes order
      ((writer.write ((MessageBuilder.new order msgType flags).appendBytes
        ((NdMsg.layout order).write header))).buf.drop NLMSG_HDRLEN) =
      some (writer.seen.foldl (NeighborMessage.addAttr order) (.ofHeader header)) := by
  have aligned : 4 ∣ ((NdMsg.layout order).write header).length :=
    ⟨3, (NdMsg.layout order).length_write header⟩
  rw [writer.buf_behind msgType flags aligned, NLMSG_HDRLEN,
    drop_left' (asBytes_length order _), NeighborMessage.fromBytes,
    RouteEvents.fromBytes_encodeAll order _ _ _ header small.2, Writer.seen]

theorem small_addWriter : (self.addWriter order masterIdx).Small 150 := by
  have octetsShort : ∀ addr, (octets addr).length ≤ 16 := by
    intro addr
    cases addr <;> simp [octets]
  refine Writer.Small.all 30 ?_ (Nat.le_refl 150)
  simp only [forall_mem_cons, not_mem_nil, false_imp_iff, implies_true, and_true,
    small_whenSome]
  refine ⟨small_attr (by decide) (by simp) (by decide),
    fun _ _ => small_u32 (by decide) _ (by decide),
    fun _ _ => small_u16 (by decide) _ (by decide),
    fun dst _ => small_attr (by decide) ?_ (by decide),
    fun _ _ => small_u32 (by decide) _ (by decide)⟩
  have atMost := octetsShort dst
  omega

theorem seen_addWriter (header : NdMsg) (isBridge : header.ndmFamily = AF_BRIDGE) :
    (self.addWriter order masterIdx).seen.foldl (NeighborMessage.addAttr order) (.ofHeader header) =
      ⟨header, none, some self.mac.toList, none, self.vlan, none, self.vni, none, masterIdx,
        none⟩ := by
  have ignored (msg : NeighborMessage) (same : msg.header = header) :
      (whenSome self.dst fun dst => (.attr 1 (octets dst) : Writer order)).seen.foldl
        (NeighborMessage.addAttr order) msg = msg := by
    rw [foldl_seen_whenSome]
    cases self.dst with
    | none => rfl
    | some dst =>
        obtain ⟨error, refused⟩ := parseIpAddr_bridge (octets dst)
        change NeighborMessage.addAttr order msg (1, octets dst) = msg
        rw [NeighborMessage.addAttr, same, isBridge, refused]
  have hasMac : (Writer.attr 2 self.mac.toList : Writer order).seen.foldl
      (NeighborMessage.addAttr order) (.ofHeader header) =
        ⟨header, none, some self.mac.toList, none, none, none, none, none, none, none⟩ := rfl
  simp only [FdbEntryBuilder.addWriter, seen_all_cons, seen_all_nil,
    List.append_nil, foldl_append, hasMac]
  cases masterIdx <;> cases self.vlan <;> cases self.vni <;>
    simp [foldl_seen_whenSome, seen_u32, seen_u16,
      NeighborMessage.addAttr, u32Or_toBytes, u16Or_toBytes, ignored]

theorem ofU16_state :
    NeighborState.ofU16 self.state = if self.permanent then .permanent else .reachable := by
  rw [FdbEntryBuilder.state]
  cases self.permanent <;> rfl

theorem fromNeighbor_of_lladdr {msg : NeighborMessage} {mac : Mac}
    (isMac : msg.lladdr = some mac.toList) :
    FdbEntry.fromNeighbor msg = some
      { ifindex := msg.header.ndmIfindex
        mac := mac
        vlan := msg.vlan
        dst := msg.destination
        vni := msg.vni
        state := .ofU16 msg.header.ndmState
        flags := msg.header.ndmFlags
        master := msg.master } := by
  simp [FdbEntry.fromNeighbor, isMac, Vector.toArray_toList]

/-- The whole entry is read back exactly if it has no remote address. -/
theorem fdbReadsBack_iff : ReadsBack order self ifindex masterIdx ↔ self.dst = none := by
  have small : (self.addWriter order masterIdx).Small 150 := small_addWriter self masterIdx
  have isRead := fromBytes_written small (self.addHeader ifindex) 28 0x605
  rw [seen_addWriter self masterIdx (self.addHeader ifindex) rfl] at isRead
  have isEntry := @fromNeighbor_of_lladdr ⟨self.addHeader ifindex, none,
    some self.mac.toList, none, self.vlan, none, self.vni, none, masterIdx, none⟩ _ rfl
  have state := ofU16_state self
  constructor
  · rintro ⟨msg, isMsg, isWhole⟩
    cases isRead.symm.trans isMsg
    have same := Option.some.inj (isEntry.symm.trans isWhole)
    exact (congrArg FdbEntry.dst same).symm
  · intro noDst
    refine ⟨_, isRead, isEntry.trans ?_⟩
    rw [noDst]
    exact congrArg (fun state => some (FdbEntry.mk ifindex self.mac self.vlan none self.vni state
      self.flags masterIdx)) state

/-- An entry is read back whole exactly if it has no remote address, and a message
exactly if it has none of the bridge's family and no address too long for its
attribute. -/
theorem readBack_iff {msg : NeighborMessage} (addressed : Addressed msg) :
    (ReadsBack order self ifindex masterIdx ↔ self.dst = none) ∧
    (NeighborMessage.fromBytes order (msg.writeTo order) = some msg ↔
      (∀ lladdr ∈ msg.lladdr, lladdr.length ≤ 65531) ∧
      (msg.header.ndmFamily = AF_BRIDGE → msg.destination = none)) :=
  ⟨fdbReadsBack_iff self ifindex masterIdx, fromBytes_writeTo_eq_iff addressed⟩

end ReadBack

/-- An entry for all other addresses behind a tunnel. -/
def vtep : FdbEntryBuilder where
  mac := Vector.replicate 6 0
  vlan := none
  dst := some (.v4 0x0a000001)
  vni := some 100
  permanent := true
  selfFlag := true
  externLearn := false
  sticky := false
  router := false

def vtepMessage : NeighborMessage :=
  { NeighborMessage.ofHeader (vtep.addHeader 5) with
    destination := vtep.dst
    lladdr := some vtep.mac.toList
    vni := vtep.vni }

theorem addressed_vtepMessage : Addressed vtepMessage :=
  ⟨.inr (.inr rfl), fun _ _ => .inl rfl⟩

theorem readBack_static :
    Addressed { vtepMessage with destination := none } ∧
    ReadsBack .little { vtep with dst := none } 5 (some 3) ∧
    NeighborMessage.fromBytes .little
        (NeighborMessage.writeTo .little { vtepMessage with destination := none }) =
      some { vtepMessage with destination := none } := by
  have addressed : Addressed { vtepMessage with destination := none } :=
    ⟨.inr (.inr rfl), fun _ isAddr => by cases isAddr⟩
  have both := @readBack_iff .little { vtep with dst := none } 5 (some 3) _ addressed
  refine ⟨addressed, both.1.mpr rfl, both.2.mpr ⟨?_, fun _ => rfl⟩⟩
  rintro _ ⟨⟩
  decide

theorem not_readBack_vtep :
    ¬ ReadsBack .little vtep 5 none ∧ Addressed vtepMessage ∧
      NeighborMessage.fromBytes .little (vtepMessage.writeTo .little) ≠ some vtepMessage := by
  refine ⟨fun isBack => ?_, addressed_vtepMessage, fun read => ?_⟩
  · cases (fdbReadsBack_iff vtep 5 none).mp isBack
  · cases noDestination_of_fromBytes rfl read

/-!
## The kernel's entries
-/

/-- The states that the entries of a bridge have. -/
inductive Nud where
  | permanent
  | noarp
  | reachable
  | stale
  deriving DecidableEq

namespace Nud

def number : Nud → BitVec 16
  | .permanent => nud.PERMANENT
  | .noarp => nud.NOARP
  | .reachable => nud.REACHABLE
  | .stale => nud.STALE

/-- The bridge has learned the entry, nobody has configured it. -/
def Learned (state : Nud) : Prop :=
  state = .reachable ∨ state = .stale

instance (state : Nud) : Decidable state.Learned :=
  inferInstanceAs (Decidable (_ ∨ _))

end Nud

structure KernelEntry where
  bridge : BitVec 32
  port : BitVec 32
  mac : Mac
  vlan : Option (BitVec 16)
  state : Nud
  flags : BitVec 8

def KernelEntry.key (entry : KernelEntry) : BitVec 32 × Mac × Option (BitVec 16) :=
  (entry.port, entry.mac, entry.vlan)

/-- The entries of all bridges, one for each key. -/
structure Table where
  entries : List KernelEntry
  distinct : ∀ first ∈ entries, ∀ second ∈ entries, first.key = second.key → first = second

section Flush

variable (order : ByteOrder)

def KernelEntry.writer (entry : KernelEntry) : Writer order :=
  .all [
    .attr 2 entry.mac.toList,
    .u32 9 entry.bridge,
    .whenSome entry.vlan fun vlan => .u16 5 vlan]

def KernelEntry.body (entry : KernelEntry) : List UInt8 :=
  (NdMsg.layout order).write ⟨AF_BRIDGE, 0, 0, entry.port, entry.state.number, entry.flags, 0⟩ ++
    encodeAll order (entry.writer order).attrs

/-- A deletion names the entries of a port and an address, of one VLAN or of all. -/
def Named (port : BitVec 32) (mac : List UInt8) (vlan : Option (BitVec 16))
    (entry : KernelEntry) : Prop :=
  entry.port = port ∧ entry.mac.toList = mac ∧ (vlan = none ∨ entry.vlan = vlan)

instance (port : BitVec 32) (mac : List UInt8) (vlan : Option (BitVec 16))
    (entry : KernelEntry) : Decidable (Named port mac vlan entry) :=
  inferInstanceAs (Decidable (_ ∧ _ ∧ _))

/-- The kernel's entries and its answer after a request. -/
abbrev Answer := List KernelEntry × Except Error Unit

/-- The kernel's answer to `RTM_DELNEIGH`. -/
def kernelDelNeigh (entries : List KernelEntry) (request : MessageBuilder) : Answer :=
  let body := request.buf.drop NLMSG_HDRLEN
  let attrs := attrIter order (body.drop 12)
  match (NdMsg.layout order).fromPrefix? body, lastOf attrs 2 with
  | some header, some mac =>
      let vlan := (lastOf attrs 5).map (readU16 order)
      if ∃ entry ∈ entries, Named header.ndmIfindex mac vlan entry then
        (entries.filter fun entry => ¬ Named header.ndmIfindex mac vlan entry, .ok ())
      else
        (entries, .error (.kernel ENOENT none none))
  | _, _ => (entries, .error (.kernel EINVAL none none))

/-- `del_fdb_by_index`. -/
def delFdbByIndex (entries : List KernelEntry) (ifindex : BitVec 32) (mac : Mac)
    (vlan : Option (BitVec 16)) : Answer :=
  kernelDelNeigh order entries
    (writeDelete order mac vlan ifindex (MessageBuilder.new order 29 (NLM_F_REQUEST ||| NLM_F_ACK)))

/-- `get_fdb_by_index`. -/
def getFdbByIndex (entries : List KernelEntry) (bridgeIdx : BitVec 32) : List FdbEntry :=
  let neighbors := entries.filterMap fun entry => NeighborMessage.fromBytes order (entry.body order)
  (neighbors.filter fun neighbor =>
    neighbor.master = some bridgeIdx ∨ neighbor.header.ndmIfindex = bridgeIdx).filterMap
      FdbEntry.fromNeighbor

/-- The loop of `flush_fdb`. -/
def flushLoop : List FdbEntry → List KernelEntry → Answer
  | [], entries => (entries, .ok ())
  | entry :: rest, entries =>
      if entry.isDynamic then
        match delFdbByIndex order entries entry.ifindex entry.mac entry.vlan with
        | (left, .ok ()) => flushLoop rest left
        | (left, .error error) =>
            -- An entry may have aged out since the dump.
            if isNotFound error then flushLoop rest left else (left, .error error)
      else
        flushLoop rest entries

/-- `flush_fdb`. -/
def flushFdb (entries : List KernelEntry) (bridgeIdx : BitVec 32) : Answer :=
  flushLoop order (getFdbByIndex order entries bridgeIdx) entries

/-!
## What a flush removes
-/

variable {order}

def KernelEntry.shown (entry : KernelEntry) : FdbEntry where
  ifindex := entry.port
  mac := entry.mac
  vlan := entry.vlan
  dst := none
  vni := none
  state := .ofU16 entry.state.number
  flags := entry.flags
  master := some entry.bridge

def KernelEntry.message (entry : KernelEntry) : NeighborMessage :=
  ⟨⟨AF_BRIDGE, 0, 0, entry.port, entry.state.number, entry.flags, 0⟩, none,
    some entry.mac.toList, none, entry.vlan, none, none, none, some entry.bridge, none⟩

variable (entry : KernelEntry)

theorem small_writer : (entry.writer order).Small 90 := by
  refine Writer.Small.all 30 ?_ (Nat.le_refl 90)
  simp only [forall_mem_cons, not_mem_nil, false_imp_iff, implies_true, and_true,
    small_whenSome]
  exact ⟨small_attr (by decide) (by simp) (by decide),
    small_u32 (by decide) _ (by decide),
    fun _ _ => small_u16 (by decide) _ (by decide)⟩

theorem fromBytes_body :
    NeighborMessage.fromBytes order (entry.body order) = some entry.message := by
  rw [NeighborMessage.fromBytes, KernelEntry.body,
    RouteEvents.fromBytes_encodeAll order _ _ _ _ (small_writer entry).2, ← Writer.seen]
  refine congrArg some ?_
  simp only [KernelEntry.writer, seen_all_cons, seen_all_nil, List.append_nil,
    foldl_append, foldl_seen_whenSome, KernelEntry.message]
  cases entry.vlan <;>
    simp [seen_attr, seen_u32, seen_u16, NeighborMessage.addAttr,
      NeighborMessage.ofHeader, u32Or_toBytes, u16Or_toBytes]

def OfBridge (bridgeIdx : BitVec 32) (entry : KernelEntry) : Prop :=
  entry.bridge = bridgeIdx ∨ entry.port = bridgeIdx

instance (bridgeIdx : BitVec 32) (entry : KernelEntry) : Decidable (OfBridge bridgeIdx entry) :=
  inferInstanceAs (Decidable (_ ∨ _))

theorem getFdbByIndex_eq (entries : List KernelEntry) (bridgeIdx : BitVec 32) :
    getFdbByIndex order entries bridgeIdx =
      (entries.filter fun entry => OfBridge bridgeIdx entry).map KernelEntry.shown := by
  have parsed : (entries.filterMap fun entry =>
      NeighborMessage.fromBytes order (entry.body order)) =
      entries.map KernelEntry.message := by
    simp only [fromBytes_body]
    exact congrFun filterMap_eq_map' entries
  have isShown (entry : KernelEntry) :
      (FdbEntry.fromNeighbor ∘ KernelEntry.message) entry = some entry.shown :=
    fromNeighbor_of_lladdr rfl
  have kept : ((fun neighbor : NeighborMessage =>
      decide (neighbor.master = some bridgeIdx ∨ neighbor.header.ndmIfindex = bridgeIdx)) ∘
        KernelEntry.message) = fun entry => decide (OfBridge bridgeIdx entry) := by
    funext entry
    exact decide_eq_decide.mpr (by simp [KernelEntry.message, OfBridge])
  rw [getFdbByIndex, parsed, filter_map, filterMap_map, kept, funext isShown]
  exact congrFun filterMap_eq_map' _

theorem delFdbByIndex_eq (entries : List KernelEntry) (ifindex : BitVec 32) (mac : Mac)
    (vlan : Option (BitVec 16)) :
    delFdbByIndex order entries ifindex mac vlan =
      if ∃ entry ∈ entries, Named ifindex mac.toList vlan entry then
        (entries.filter fun entry => ¬ Named ifindex mac.toList vlan entry, .ok ())
      else
        (entries, .error (.kernel ENOENT none none)) := by
  let writer : Writer order := .all [.attr 2 mac.toList, .whenSome vlan fun vlan => .u16 5 vlan]
  let header : NdMsg := ⟨AF_BRIDGE, 0, 0, ifindex, 0, 0, 0⟩
  have small : writer.Small 60 := by
    refine Writer.Small.all 30 ?_ (Nat.le_refl 60)
    simp only [forall_mem_cons, not_mem_nil, false_imp_iff, implies_true, and_true,
      small_whenSome]
    exact ⟨small_attr (by decide) (by simp) (by decide),
      fun _ _ => small_u16 (by decide) _ (by decide)⟩
  have body : (writeDelete order mac vlan ifindex
      (MessageBuilder.new order 29 (NLM_F_REQUEST ||| NLM_F_ACK))).buf.drop NLMSG_HDRLEN =
        (NdMsg.layout order).write header ++ encodeAll order writer.attrs := by
    rw [writeDelete, writer.buf_behind _ _ ⟨3, (NdMsg.layout order).length_write header⟩,
      NLMSG_HDRLEN, drop_left' (asBytes_length order _)]
  have attrs : attrIter order
      (((NdMsg.layout order).write header ++ encodeAll order writer.attrs).drop 12) =
        writer.seen := by
    exact (congrArg (attrIter order)
      (drop_left' ((NdMsg.layout order).length_write header))).trans (attrIter_payload small)
  have isMac : writer.found 2 = some mac.toList := by simp [writer]
  have isVlan : (writer.found 5).map (readU16 order) = vlan := by cases vlan <;> simp [writer]
  simp only [delFdbByIndex, kernelDelNeigh, body, attrs, FixedLayout.fromPrefix?_write,
    lastOf_seen, isMac, isVlan, header]

theorem flushLoop_eq (dumped : List FdbEntry) (entries : List KernelEntry) :
    flushLoop order dumped entries =
      (entries.filter fun entry => ∀ found ∈ dumped, found.isDynamic = true →
        ¬ Named found.ifindex found.mac.toList found.vlan entry, .ok ()) := by
  induction dumped generalizing entries with
  | nil => simp [flushLoop]
  | cons found rest ih =>
      rw [flushLoop]
      by_cases dynamic : found.isDynamic = true
      · rw [if_pos dynamic, delFdbByIndex_eq]
        by_cases named : ∃ entry ∈ entries, Named found.ifindex found.mac.toList found.vlan entry
        · rw [if_pos named]
          dsimp only
          rw [ih, filter_filter]
          simp [dynamic, Bool.and_comm]
        · rw [if_neg named]
          have isLate : isNotFound (.kernel ENOENT none none) = true := rfl
          dsimp only
          rw [if_pos isLate, ih]
          refine Prod.ext (filter_congr fun entry member => ?_) rfl
          have other : ¬ Named found.ifindex found.mac.toList found.vlan entry :=
            fun isNamed => named ⟨entry, member, isNamed⟩
          simp [dynamic, other]
      · rw [if_neg dynamic, ih]
        simp [dynamic]

/-- After a flush that returns, no learned entry of the bridge is left and every
other entry is still there. -/
structure Flushed (bridgeIdx : BitVec 32) (before : List KernelEntry)
    (after : List KernelEntry) : Prop where
  noLearned : ∀ entry ∈ before, OfBridge bridgeIdx entry → entry.state.Learned → entry ∉ after
  kept : ∀ entry ∈ before, ¬ entry.state.Learned → entry ∈ after

/-- Every learned entry of the bridge has a VLAN, or shares its port and address
with learned entries only. -/
def Separate (bridgeIdx : BitVec 32) (entries : List KernelEntry) : Prop :=
  ∀ entry ∈ entries, OfBridge bridgeIdx entry → entry.state.Learned → entry.vlan = none →
    ∀ other ∈ entries, other.port = entry.port → other.mac = entry.mac → other.state.Learned

/-- The entries of the bridge that a flush deletes are those that are not permanent. -/
theorem isDynamic_shown : entry.shown.isDynamic = true ↔ entry.state ≠ .permanent := by
  have each (state : Nud) :
      (!(NeighborState.ofU16 state.number == .permanent)) = true ↔ state ≠ .permanent := by
    cases state <;> decide
  exact each entry.state

theorem named_self : Named entry.port entry.mac.toList entry.vlan entry :=
  ⟨rfl, rfl, .inr rfl⟩

variable {table : Table} {bridgeIdx : BitVec 32}

theorem mem_flushFdb :
    entry ∈ (flushFdb order table.entries bridgeIdx).1 ↔
      entry ∈ table.entries ∧ ∀ found ∈ table.entries, OfBridge bridgeIdx found →
        found.state ≠ .permanent → ¬ Named found.port found.mac.toList found.vlan entry := by
  rw [flushFdb, flushLoop_eq, getFdbByIndex_eq, mem_filter, decide_eq_true_eq]
  refine and_congr_right fun _ => ?_
  simp only [forall_mem_map, isDynamic_shown, mem_filter, decide_eq_true_eq, and_imp]
  rfl

theorem flushFdb_ok : (flushFdb order table.entries bridgeIdx).2 = .ok () := by
  rw [flushFdb, flushLoop_eq]

theorem not_learned_noarp {state : Nud} (isNoarp : state = .noarp) : ¬ state.Learned := by
  rw [isNoarp]
  decide

/-- A flush removes what is learned and keeps the rest exactly if the bridge has
no static entry, and no learned entry without VLAN beside a configured one. -/
theorem flushed_iff :
    ((flushFdb order table.entries bridgeIdx).2 = .ok () →
        Flushed bridgeIdx table.entries (flushFdb order table.entries bridgeIdx).1) ↔
      (∀ entry ∈ table.entries, OfBridge bridgeIdx entry → entry.state ≠ .noarp) ∧
      Separate bridgeIdx table.entries := by
  constructor
  · intro flushed
    have kept := (flushed flushFdb_ok).kept
    constructor
    · intro entry member ofBridge isNoarp
      have isLeft := (mem_flushFdb entry).mp (kept entry member (not_learned_noarp isNoarp))
      have notPermanent : entry.state ≠ .permanent := by
        rw [isNoarp]
        decide
      exact isLeft.2 entry member ofBridge notPermanent (named_self entry)
    · intro entry member ofBridge learned noVlan other isOther samePort sameMac
      by_contra configured
      have isLeft := (mem_flushFdb other).mp (kept other isOther configured)
      have notPermanent : entry.state ≠ .permanent := by
        rcases learned with isState | isState <;> rw [isState] <;> decide
      exact isLeft.2 entry member ofBridge notPermanent
        ⟨samePort, congrArg Vector.toList sameMac, .inl noVlan⟩
  · rintro ⟨noStatic, separate⟩ -
    refine ⟨fun entry member ofBridge learned isLeft => ?_, fun entry member configured => ?_⟩
    · have notPermanent : entry.state ≠ .permanent := by
        rcases learned with isState | isState <;> rw [isState] <;> decide
      exact ((mem_flushFdb entry).mp isLeft).2 entry member ofBridge notPermanent (named_self entry)
    · refine (mem_flushFdb entry).mpr ⟨member, fun found isFound ofBridge dynamic named => ?_⟩
      obtain ⟨samePort, sameMac, sameVlan⟩ := named
      have isMac : entry.mac = found.mac := Vector.toList_inj.mp sameMac
      have learned : found.state.Learned := by
        have notStatic := noStatic found isFound ofBridge
        rw [Nud.Learned]
        cases isState : found.state with
        | permanent => exact absurd isState dynamic
        | noarp => exact absurd isState notStatic
        | reachable => exact .inl rfl
        | stale => exact .inr rfl
      rcases sameVlan with noVlan | isVlan
      · exact configured (separate found isFound ofBridge learned noVlan entry member samePort
          isMac)
      · have same : entry = found :=
          table.distinct entry member found isFound (by
            rw [KernelEntry.key, KernelEntry.key, samePort, isMac, isVlan])
        exact configured (same ▸ learned)

end Flush

/-- A static entry on a port of a bridge. -/
def staticTable : Table where
  entries := [⟨3, 5, Vector.replicate 6 2, none, .noarp, 0⟩]
  distinct := by
    intro first isFirst second isSecond _
    rw [mem_singleton.mp isFirst, mem_singleton.mp isSecond]

theorem not_flushed_static :
    (flushFdb .little staticTable.entries 3).2 = .ok () ∧
      ¬ Flushed 3 staticTable.entries (flushFdb .little staticTable.entries 3).1 := by
  refine ⟨flushFdb_ok, fun flushed => ?_⟩
  have isLeft := flushed.kept _ mem_cons_self (by decide)
  exact ((mem_flushFdb _).mp isLeft).2 _ mem_cons_self (.inl rfl) (by decide) (named_self _)

end Nlink.Fdb
