import Nlink.AddressCodec
import Nlink.Rule
import Nlink.WireguardText

namespace Nlink.RuleCodec

open Foundation Netlink List Writer
open Genl (NoNul)
open Neighbor (OfFamily parseIpAddr)
open Rule (FibRuleAction FibRuleHdr IpAddr RuleBuilder)

/-!
# Reading routing rules back

The builder takes its family and its addresses one by one, and packs port ranges
by hand.  The parser reads addresses by the family of the header, and numbers in
the byte order of the host.
-/

structure RuleMessage where
  header : FibRuleHdr
  priority : BitVec 32
  source : Option Addr.IpAddr
  destination : Option Addr.IpAddr
  iifname : Option String
  oifname : Option String
  fwmark : Option (BitVec 32)
  fwmask : Option (BitVec 32)
  table : BitVec 32
  goto : Option (BitVec 32)
  flow : Option (BitVec 32)
  tunId : Option (BitVec 64)
  suppressIfgroup : Option (BitVec 32)
  suppressPrefixlen : Option (BitVec 32)
  l3mdev : Option UInt8
  uidRange : Option (BitVec 32 × BitVec 32)
  protocol : Option UInt8
  ipProto : Option UInt8
  sportRange : Option (BitVec 16 × BitVec 16)
  dportRange : Option (BitVec 16 × BitVec 16)

/-- `FibRuleAction::from`. -/
def FibRuleAction.ofU8 : UInt8 → FibRuleAction
  | 0 => .unspec
  | 1 => .toTbl
  | 2 => .goto
  | 3 => .nop
  | 6 => .blackhole
  | 7 => .unreachable
  | 8 => .prohibit
  | _ => .unspec

/-- `parse_string`. -/
def parseString (data : List UInt8) : Option String :=
  Nftables.fromUtf8 (data.takeWhile (· != 0))

/-- The address of a family, if it is there. -/
def address (family : UInt8) (data : List UInt8) : Option Addr.IpAddr :=
  (parseIpAddr data family.toBitVec).toOption

section Code

variable (order : ByteOrder)

/-- `FibRulePortRange::from_bytes`. -/
def FibRulePortRange.fromBytes (data : List UInt8) : Option (BitVec 16 × BitVec 16) :=
  ((FixedLayout.number order 2).pair (FixedLayout.number order 2)).fromPrefix? data

/-- `FibRuleUidRange::from_bytes`. -/
def FibRuleUidRange.fromBytes (data : List UInt8) : Option (BitVec 32 × BitVec 32) :=
  ((FixedLayout.number order 4).pair (FixedLayout.number order 4)).fromPrefix? data

namespace RuleMessage

/-- A rule of which only the header is known. -/
def ofHeader (header : FibRuleHdr) : RuleMessage :=
  ⟨header, 0, none, none, none, none, none, none, BitVec.ofNat 32 header.table.toNat, none, none,
    none, none, none, none, none, none, none, none, none⟩

def addAttr (msg : RuleMessage) : Attribute → RuleMessage
  -- FRA_DST
  | (1, data) => { msg with destination := (address msg.header.family data).or msg.destination }
  -- FRA_SRC
  | (2, data) => { msg with source := (address msg.header.family data).or msg.source }
  -- FRA_IIFNAME
  | (3, data) => { msg with iifname := parseString data }
  -- FRA_GOTO
  | (4, data) => { msg with goto := u32Or order data msg.goto }
  -- FRA_PRIORITY
  | (6, data) => { msg with priority := (u32Or order data none).getD msg.priority }
  -- FRA_FWMARK
  | (10, data) => { msg with fwmark := u32Or order data msg.fwmark }
  -- FRA_FLOW
  | (11, data) => { msg with flow := u32Or order data msg.flow }
  -- FRA_TUN_ID
  | (12, data) =>
      { msg with
        tunId :=
          if 8 ≤ data.length then
            some (BitVec.ofNat 64 (ByteOrder.big.ofBytes (data.take 8)))
          else
            msg.tunId }
  -- FRA_SUPPRESS_IFGROUP
  | (13, data) => { msg with suppressIfgroup := u32Or order data msg.suppressIfgroup }
  -- FRA_SUPPRESS_PREFIXLEN
  | (14, data) => { msg with suppressPrefixlen := u32Or order data msg.suppressPrefixlen }
  -- FRA_TABLE
  | (15, data) => { msg with table := (u32Or order data none).getD msg.table }
  -- FRA_FWMASK
  | (16, data) => { msg with fwmask := u32Or order data msg.fwmask }
  -- FRA_OIFNAME
  | (17, data) => { msg with oifname := parseString data }
  -- FRA_L3MDEV
  | (19, data) => { msg with l3mdev := data.head?.or msg.l3mdev }
  -- FRA_UID_RANGE
  | (20, data) => { msg with uidRange := (FibRuleUidRange.fromBytes order data).or msg.uidRange }
  -- FRA_PROTOCOL
  | (21, data) => { msg with protocol := data.head?.or msg.protocol }
  -- FRA_IP_PROTO
  | (22, data) => { msg with ipProto := data.head?.or msg.ipProto }
  -- FRA_SPORT_RANGE
  | (23, data) => { msg with sportRange := (FibRulePortRange.fromBytes order data).or msg.sportRange }
  -- FRA_DPORT_RANGE
  | (24, data) => { msg with dportRange := (FibRulePortRange.fromBytes order data).or msg.dportRange }
  | _ => msg

/-- The attributes that the loop of the parser goes through. -/
def attrs (input : List UInt8) : List Attribute :=
  (RouteEvents.attrsFrom order input.length (input.drop FibRuleHdr.SIZE)).1

/-- `RuleMessage::parse`. -/
def parse (input : List UInt8) : Option RuleMessage :=
  (FibRuleHdr.fromBytes order input).map fun header =>
    (attrs order input).foldl (addAttr order) (ofHeader header)

end RuleMessage

def RTM_NEWRULE : Nat := 32

/-- `RuleBuilder::build`. -/
def build (builder : RuleBuilder) : MessageBuilder :=
  builder.buildInternal order
    (.new order RTM_NEWRULE (NLM_F_REQUEST ||| NLM_F_ACK ||| NLM_F_CREATE ||| NLM_F_EXCL))

end Code

/-!
## What is declared
-/

/-- A call that sets a side of a rule: `from_addr` or `to_addr`, or with a text
`from_prefix` or `to_prefix`. -/
inductive Call where
  | addr (ip : IpAddr) (prefixLen : UInt8)
  | text (given : String) (prefixLen : UInt8)

namespace Call

/-- The address that is given; a text may be none. -/
def address : Call → Option IpAddr
  | .addr ip _ => some ip
  | .text given _ =>
      (Wireguard.parseIpAddr given.toList).map fun
        | .v4 bits => .v4 bits
        | .v6 bits => .v6 bits

def prefixLen : Call → UInt8
  | .addr _ len | .text _ len => len

/-- A text that is no address leaves the side as it was. -/
def set (side : Option IpAddr × UInt8) (call : Call) : Option IpAddr × UInt8 :=
  match call.address with
  | some ip => (some ip, call.prefixLen)
  | none => side

end Call

/-- A rule as it is declared, with all calls for its sides in order. -/
structure Declared where
  family : UInt8
  priority : Option (BitVec 32)
  source : List Call
  destination : List Call
  iif : Option { name : String // NoNul name }
  oif : Option { name : String // NoNul name }
  mark : Option (BitVec 32 × Option (BitVec 32))
  table : BitVec 32
  action : FibRuleAction
  ipproto : Option UInt8
  sport : Option (BitVec 16 × BitVec 16)
  dport : Option (BitVec 16 × BitVec 16)
  /-- The actions that there are calls for. -/
  isAction : action ∈ [.toTbl, .blackhole, .unreachable, .prohibit]

def Declared.builder (rule : Declared) : RuleBuilder where
  family := rule.family
  priority := rule.priority
  src := (rule.source.foldl Call.set (none, 0)).1
  srcLen := (rule.source.foldl Call.set (none, 0)).2
  dst := (rule.destination.foldl Call.set (none, 0)).1
  dstLen := (rule.destination.foldl Call.set (none, 0)).2
  iif := rule.iif.map (·.1)
  oif := rule.oif.map (·.1)
  fwmark := rule.mark.map (·.1)
  fwmask := rule.mark.bind (·.2)
  table := rule.table
  action := rule.action
  ipproto := rule.ipproto
  sport := rule.sport
  dport := rule.dport

def asAddr : IpAddr → Addr.IpAddr
  | .v4 addr => .v4 addr
  | .v6 addr => .v6 addr

/-- A side is as the last call declares it. -/
def SideShown (calls : List Call) (addr : Option Addr.IpAddr) (len : UInt8) : Prop :=
  match calls.getLast? with
  | none => addr = none ∧ len = 0
  | some call =>
      ∃ given, call.address = some given ∧ addr = some (asAddr given) ∧ len = call.prefixLen

/-- What was declared is read. -/
structure Shows (rule : Declared) (msg : RuleMessage) : Prop where
  priority : msg.priority = rule.priority.getD 0
  source : SideShown rule.source msg.source msg.header.srcLen
  destination : SideShown rule.destination msg.destination msg.header.dstLen
  iifname : msg.iifname = rule.iif.map (·.1)
  oifname : msg.oifname = rule.oif.map (·.1)
  fwmark : msg.fwmark = rule.mark.map (·.1)
  fwmask : msg.fwmask = rule.mark.bind (·.2)
  table : msg.table = rule.table
  action : FibRuleAction.ofU8 msg.header.action = rule.action
  ipProto : msg.ipProto = rule.ipproto
  sportRange : msg.sportRange = rule.sport
  dportRange : msg.dportRange = rule.dport

/-- All addresses of the message are of the rule's family, and what is parsed of its
body shows the rule. -/
def ReadsBack (order : ByteOrder) (rule : Declared) : Prop :=
  (∀ addr ∈ rule.builder.src.toList ++ rule.builder.dst.toList,
      OfFamily rule.family.toBitVec (asAddr addr)) ∧
    ∃ msg, RuleMessage.parse order ((build order rule.builder).buf.drop NLMSG_HDRLEN) = some msg ∧
      Shows rule msg

/-- The last call gives an address of a family. -/
def SideOf (family : UInt8) (calls : List Call) : Prop :=
  ∀ call ∈ calls.getLast?, ∃ given, call.address = some given ∧
    OfFamily family.toBitVec (asAddr given)

/-- Both sides are of the family, and a host with the other byte order reads the bounds
of port ranges as they are. -/
def Agreeing (order : ByteOrder) (rule : Declared) : Prop :=
  (SideOf rule.family rule.source ∧ SideOf rule.family rule.destination) ∧
    ∀ range ∈ rule.sport.toList ++ rule.dport.toList,
      (order = .little ∨ ReadsBackwards 2 range.1.toNat) ∧
        (order = .little ∨ ReadsBackwards 2 range.2.toNat)

/-!
## What is written
-/

section Written

variable (order : ByteOrder) (builder : RuleBuilder)

/-- The attributes that `build_internal` appends. -/
def written : Writer order :=
  .all [
    .whenSome builder.priority (.u32 6),
    .whenSome builder.src fun addr => .attr 2 addr.octets,
    .whenSome builder.dst fun addr => .attr 1 addr.octets,
    .whenSome builder.iif (.str 3),
    .whenSome builder.oif (.str 17),
    .whenSome builder.fwmark fun mark =>
      .andThen (.u32 10 mark) (.whenSome builder.fwmask (.u32 16)),
    .when (255 < builder.table.toNat) (.u32 15 builder.table),
    .whenSome builder.ipproto fun proto => .attr 22 [proto],
    .whenSome builder.sport fun range => .attr 23 (RuleBuilder.rangeBytes range),
    .whenSome builder.dport fun range => .attr 24 (RuleBuilder.rangeBytes range)]

variable {order builder}

theorem appendSome_eq {α : Type} (value : Option α) (writer : α → Writer order) :
    RuleBuilder.appendSome value (fun msg given => (writer given).write msg) =
      (whenSome value writer).write := by
  cases value <;> rfl

theorem buildInternal_eq (msg : MessageBuilder) :
    builder.buildInternal order msg =
      (written order builder).write (msg.appendBytes (builder.header.asBytes order)) := by
  have table (msg : MessageBuilder) :
      (Writer.when (255 < builder.table.toNat) (.u32 15 builder.table) : Writer order).write msg =
        if 255 < builder.table.toNat then
          msg.appendAttrU32 order 15 builder.table.toNat
        else
          msg := by
    by_cases wide : 255 < builder.table.toNat
    · rw [if_pos wide, decide_eq_true wide]
      rfl
    · rw [if_neg wide, decide_eq_false wide]
      rfl
  simp only [written, Writer.all, Writer.andThen, ← appendSome_eq, table]
  rfl

theorem small_written
    (short : ∀ name ∈ builder.iif.toList ++ builder.oif.toList, (asBytes name).length ≤ 65530) :
    (written order builder).Small (10 * 65538) := by
  have octets (ip : IpAddr) : ip.octets.length + 7 ≤ 65538 := by cases ip <;> simp [IpAddr.octets]
  have range (range : BitVec 16 × BitVec 16) :
      (RuleBuilder.rangeBytes range).length + 7 ≤ 65538 := by
    simp [RuleBuilder.rangeBytes]
  have named (attrType : Nat) (plain : attrType < 65536) {name : String}
      (isName : builder.iif = some name ∨ builder.oif = some name) :
      (str attrType name : Writer order).Small 65538 :=
    small_str plain (Nat.add_le_add_right (short name (by simpa using isName)) 8) le_rfl
  have mark (mark : BitVec 32) : (Writer.andThen (.u32 10 mark)
      (.whenSome builder.fwmask (.u32 16)) : Writer order).Small 65538 :=
    ((small_u32 (by decide) mark (le_refl 11)).andThen
      (Writer.small_whenSome.mpr fun mask _ =>
        small_u32 (by decide) mask (le_refl 11))).mono (by decide)
  refine Writer.Small.all 65538 ?_ le_rfl
  simp +contextual [octets, range, named, mark]

def shown (order : ByteOrder) (builder : RuleBuilder) : RuleMessage :=
  { RuleMessage.ofHeader builder.header with
    priority := builder.priority.getD 0
    source := builder.src.bind fun ip => address builder.family ip.octets
    destination := builder.dst.bind fun ip => address builder.family ip.octets
    iifname := builder.iif.elim none fun name => parseString (asBytes name ++ [0])
    oifname := builder.oif.elim none fun name => parseString (asBytes name ++ [0])
    fwmark := builder.fwmark
    fwmask := builder.fwmark.bind fun _ => builder.fwmask
    table := builder.table
    ipProto := builder.ipproto
    sportRange := builder.sport.bind fun range =>
      FibRulePortRange.fromBytes order (RuleBuilder.rangeBytes range)
    dportRange := builder.dport.bind fun range =>
      FibRulePortRange.fromBytes order (RuleBuilder.rangeBytes range) }

def added (writer : Writer order) (msg : RuleMessage) : RuleMessage :=
  writer.seen.foldl (RuleMessage.addAttr order) msg

theorem added_all_cons (writer : Writer order) (rest : List (Writer order)) (msg : RuleMessage) :
    added (.all (writer :: rest)) msg = added (.all rest) (added writer msg) := by
  rw [added, seen_all_cons, foldl_append]
  rfl

theorem table_eq : (if 255 < builder.table.toNat then builder.table
    else BitVec.ofNat 32 builder.header.table.toNat) = builder.table := by
  rw [RuleBuilder.header]
  split
  · rfl
  · rename_i narrow
    apply BitVec.eq_of_toNat_eq
    rw [if_pos (Nat.le_of_not_lt narrow), BitVec.toNat_ofNat, UInt8.toNat_ofNat']
    omega

theorem added_written : added (written order builder) (.ofHeader builder.header) =
    shown order builder := by
  have priority (msg : RuleMessage) :
      added (.whenSome builder.priority (.u32 6) : Writer order) msg =
        { msg with priority := builder.priority.getD msg.priority } := by
    cases builder.priority with
    | none => rfl
    | some found =>
        exact congrArg (fun old : Option (BitVec 32) =>
          { msg with priority := old.getD msg.priority }) (u32Or_toBytes order found none)
  have source (msg : RuleMessage) :
      added (.whenSome builder.src fun ip => .attr 2 ip.octets : Writer order) msg =
        { msg with
          source := (builder.src.bind fun ip =>
            address msg.header.family ip.octets).or msg.source } := by
    cases builder.src <;> rfl
  have destination (msg : RuleMessage) :
      added (.whenSome builder.dst fun ip => .attr 1 ip.octets : Writer order) msg =
        { msg with
          destination := (builder.dst.bind fun ip =>
            address msg.header.family ip.octets).or msg.destination } := by
    cases builder.dst <;> rfl
  have iifname (msg : RuleMessage) : added (.whenSome builder.iif (.str 3) : Writer order) msg =
      { msg with
        iifname := builder.iif.elim msg.iifname fun name => parseString (asBytes name ++ [0]) } := by
    cases builder.iif <;> rfl
  have oifname (msg : RuleMessage) : added (.whenSome builder.oif (.str 17) : Writer order) msg =
      { msg with
        oifname := builder.oif.elim msg.oifname fun name => parseString (asBytes name ++ [0]) } := by
    cases builder.oif <;> rfl
  have mark (msg : RuleMessage) : added (.whenSome builder.fwmark fun mark =>
      .andThen (.u32 10 mark) (.whenSome builder.fwmask (.u32 16)) : Writer order) msg =
        { msg with
          fwmark := builder.fwmark.or msg.fwmark
          fwmask := (builder.fwmark.bind fun _ => builder.fwmask).or msg.fwmask } := by
    cases builder.fwmark with
    | none => rfl
    | some mark =>
        have marked := congrArg (fun old => { msg with fwmark := old })
          (u32Or_toBytes order mark msg.fwmark)
        cases builder.fwmask with
        | none => exact marked
        | some mask =>
            exact (congrArg (RuleMessage.addAttr order · (16, order.toBytes 4 mask.toNat))
              marked).trans (congrArg (fun old => { msg with fwmark := some mark, fwmask := old })
                (u32Or_toBytes order mask msg.fwmask))
  have table (msg : RuleMessage) :
      added (.when (255 < builder.table.toNat) (.u32 15 builder.table) : Writer order) msg =
        { msg with table := if 255 < builder.table.toNat then builder.table else msg.table } := by
    by_cases wide : 255 < builder.table.toNat
    · rw [if_pos wide, decide_eq_true wide]
      exact congrArg (fun old : Option (BitVec 32) =>
        { msg with table := old.getD msg.table }) (u32Or_toBytes order builder.table none)
    · rw [if_neg wide, decide_eq_false wide]
      rfl
  have ipProto (msg : RuleMessage) :
      added (.whenSome builder.ipproto fun proto => .attr 22 [proto] : Writer order) msg =
        { msg with ipProto := builder.ipproto.or msg.ipProto } := by
    cases builder.ipproto <;> rfl
  have sport (msg : RuleMessage) : added (.whenSome builder.sport fun range =>
      .attr 23 (RuleBuilder.rangeBytes range) : Writer order) msg =
        { msg with
          sportRange := (builder.sport.bind fun range =>
            FibRulePortRange.fromBytes order (RuleBuilder.rangeBytes range)).or msg.sportRange } := by
    cases builder.sport <;> rfl
  have dport (msg : RuleMessage) : added (.whenSome builder.dport fun range =>
      .attr 24 (RuleBuilder.rangeBytes range) : Writer order) msg =
        { msg with
          dportRange := (builder.dport.bind fun range =>
            FibRulePortRange.fromBytes order (RuleBuilder.rangeBytes range)).or msg.dportRange } := by
    cases builder.dport <;> rfl
  simp only [written, added_all_cons, priority, source, destination, iifname, oifname, mark,
    table, ipProto, sport, dport, RuleMessage.ofHeader, Option.or_none]
  rw [table_eq]
  rfl

theorem parse_build
    (short : ∀ name ∈ builder.iif.toList ++ builder.oif.toList, (asBytes name).length ≤ 65530) :
    RuleMessage.parse order ((build order builder).buf.drop NLMSG_HDRLEN) =
      some (shown order builder) := by
  have headerLength := FibRuleHdr.asBytes_length order builder.header
  have small := (@small_written order builder short).2
  have start : ∀ flags, (MessageBuilder.new order RTM_NEWRULE flags).buf.length = NLMSG_HDRLEN := by
    simp [MessageBuilder.new, NlMsgHdr.asBytes, NLMSG_HDRLEN]
  have body := ((appends_header (show 4 ∣ (builder.header.asBytes order).length by
    rw [headerLength]; decide)).comp (written order builder).appends).appended
  have enough : (written order builder).attrs.length ≤
      (builder.header.asBytes order ++ encodeAll order (written order builder).attrs).length := by
    rw [length_append]
    exact Nat.le_add_left_of_le (RouteEvents.length_le_length_encodeAll order _)
  rw [build, buildInternal_eq, body _ (by rw [start]; decide), drop_left' (start _),
    RuleMessage.parse, FibRuleHdr.fromBytes_asBytes, RuleMessage.attrs, drop_left'
    headerLength, RouteEvents.attrsFrom_encodeAll order small enough, ← added_written]
  rfl

end Written

/-!
## What is read back
-/

section Reading

variable {order : ByteOrder}

theorem portRange_eq_iff (range : BitVec 16 × BitVec 16) :
    FibRulePortRange.fromBytes order (RuleBuilder.rangeBytes range) = some range ↔
      (order = .little ∨ ReadsBackwards 2 range.1.toNat) ∧
        (order = .little ∨ ReadsBackwards 2 range.2.toNat) := by
  have bound (port : BitVec 16) :
      BitVec.ofNat 16 (order.ofBytes (ByteOrder.little.toBytes 2 port.toNat)) = port ↔
        order = .little ∨ ReadsBackwards 2 port.toNat := by
    have fits := order.ofBytes_lt (ByteOrder.little.toBytes 2 port.toNat)
    rw [ByteOrder.toBytes_length] at fits
    rw [← ofBytes_toBytes_little_eq_iff order port.isLt, ← BitVec.toNat_inj, BitVec.toNat_ofNat,
      Nat.mod_eq_of_lt (show _ < 2 ^ 16 from fits)]
  obtain ⟨first, last⟩ := range
  rw [← bound first, ← bound last]
  obtain ⟨a, b, isFirst⟩ := length_eq_two.mp (ByteOrder.little.toBytes_length 2 first.toNat)
  obtain ⟨c, d, isLast⟩ := length_eq_two.mp (ByteOrder.little.toBytes_length 2 last.toNat)
  rw [RuleBuilder.rangeBytes, isFirst, isLast]
  exact Option.some_inj.trans Prod.mk_inj

/-- A side of the builder, as it is parsed, is the one that is declared. -/
theorem side_iff (family : UInt8) (calls : List Call) :
    SideShown calls ((calls.foldl Call.set (none, 0)).1.bind fun ip => address family ip.octets)
        (calls.foldl Call.set (none, 0)).2 ∧
      (∀ ip ∈ (calls.foldl Call.set (none, 0)).1, OfFamily family.toBitVec (asAddr ip)) ↔
      SideOf family calls := by
  rcases eq_nil_or_concat' calls with rfl | ⟨before, call, rfl⟩
  · exact iff_of_true ⟨⟨rfl, rfl⟩, nofun⟩ nofun
  · rw [SideShown, SideOf, getLast?_concat, foldl_append, foldl_cons, foldl_nil, Call.set]
    cases given : call.address with
    | none => simp [given]
    | some ip =>
        have parsed (ofFamily : OfFamily family.toBitVec (asAddr ip)) :
            address family ip.octets = some (asAddr ip) := by
          have octets : ip.octets = Neighbor.octets (asAddr ip) := by cases ip <;> rfl
          rw [address, octets, Neighbor.parseIpAddr_octets ofFamily]
          rfl
        simpa [given] using parsed

variable {rule : Declared}

theorem readsBack_named_iff
    (short : ∀ name ∈ rule.iif.toList ++ rule.oif.toList, (asBytes name.1).length ≤ 65530) :
    ReadsBack order rule ↔ Agreeing order rule := by
  have parsed := @parse_build order rule.builder (by
    intro name member
    rw [mem_append, Option.mem_toList, Option.mem_toList] at member
    rcases member with isName | isName <;>
      obtain ⟨found, isFound, rfl⟩ := Option.map_eq_some_iff.mp isName <;>
      exact short found (by simp [isFound]))
  have named (name : Option { name : String // NoNul name }) :
      (name.map (·.1)).elim none (fun name => parseString (asBytes name ++ [0])) =
        name.map (·.1) := by
    cases name with
    | none => rfl
    | some name =>
        change parseString (asBytes name.1 ++ [0]) = some name.1
        rw [parseString, takeWhile_terminated name.2, Nftables.fromUtf8_asBytes]
  have ranged (range : Option (BitVec 16 × BitVec 16)) :
      (range.bind fun range => FibRulePortRange.fromBytes order (RuleBuilder.rangeBytes range)) =
        range ↔ ∀ found ∈ range, (order = .little ∨ ReadsBackwards 2 found.1.toNat) ∧
          (order = .little ∨ ReadsBackwards 2 found.2.toNat) := by
    cases range with
    | none => simp
    | some range => simp [portRange_eq_iff]
  have shows : Shows rule (shown order rule.builder) ↔
      (SideShown rule.source (shown order rule.builder).source rule.builder.srcLen ∧
        SideShown rule.destination (shown order rule.builder).destination rule.builder.dstLen) ∧
      (shown order rule.builder).sportRange = rule.sport ∧
        (shown order rule.builder).dportRange = rule.dport := by
    refine ⟨fun shows => ⟨⟨shows.source, shows.destination⟩, shows.sportRange, shows.dportRange⟩,
      fun ⟨⟨source, destination⟩, sport, dport⟩ => ⟨rfl, source, destination, named rule.iif,
        named rule.oif, rfl, ?_, rfl, ?_, rfl, sport, dport⟩⟩
    · rw [shown, Declared.builder]
      cases rule.mark <;> rfl
    · have isAction := rule.isAction
      revert isAction
      cases isAction : rule.action <;> simp [shown, Declared.builder, isAction] <;> rfl
  rw [ReadsBack, parsed, Agreeing, ← side_iff, ← side_iff]
  simp only [Option.some.injEq, exists_eq_left', shows, forall_mem_append, Option.mem_toList]
  have sport := ranged rule.sport
  have dport := ranged rule.dport
  exact ⟨fun ⟨⟨ofSource, ofDestination⟩, ⟨source, destination⟩, sportRead, dportRead⟩ =>
      ⟨⟨⟨source, ofSource⟩, destination, ofDestination⟩, sport.mp sportRead, dport.mp dportRead⟩,
    fun ⟨⟨⟨source, ofSource⟩, destination, ofDestination⟩, sportAgrees, dportAgrees⟩ =>
      ⟨⟨ofSource, ofDestination⟩, ⟨source, destination⟩, sport.mpr sportAgrees,
        dport.mpr dportAgrees⟩⟩

/-- The loop stops, or goes through one attribute and on with what is behind it. -/
theorem attrsFrom_step (input : List UInt8) :
    (∃ left, ∀ fuel, RouteEvents.attrsFrom order (fuel + 1) input = ([], left)) ∨
      ∃ attr rest, attr.2 <:+: input ∧ rest <:+ input ∧ rest.length < input.length ∧
        ∀ fuel, RouteEvents.attrsFrom order (fuel + 1) input =
          (attr :: (RouteEvents.attrsFrom order fuel rest).1,
            (RouteEvents.attrsFrom order fuel rest).2) := by
  by_cases short : input.length < 4
  · exact .inl ⟨_, fun fuel => if_pos short⟩
  · by_cases misfits : order.ofBytes (input.take 2) < 4 ∨
        (input.drop 4).length < order.ofBytes (input.take 2) - 4
    · exact .inl ⟨_, fun fuel => (if_neg short).trans (if_pos misfits)⟩
    · refine .inr ⟨_, _, ?_, ?_, ?_, fun fuel => (if_neg short).trans (if_neg misfits)⟩
      · exact (List.take_prefix ..).isInfix.trans (drop_suffix ..).isInfix
      · split
        · exact (drop_suffix ..).trans ((drop_suffix ..).trans (drop_suffix ..))
        · exact (drop_suffix ..).trans (drop_suffix ..)
      · split <;> simp only [length_drop] <;> omega

/-- The loop stops by itself, and goes through parts of its input. -/
theorem attrsFrom_within {fuel other : Nat} {input : List UInt8} (enough : input.length ≤ fuel)
    (otherEnough : input.length ≤ other) :
    RouteEvents.attrsFrom order fuel input = RouteEvents.attrsFrom order other input ∧
      ∀ attr ∈ (RouteEvents.attrsFrom order fuel input).1, attr.2 <:+: input := by
  induction fuel generalizing input other with
  | zero =>
      rw [eq_nil_of_length_eq_zero (Nat.le_zero.mp enough)]
      cases other <;> exact ⟨rfl, nofun⟩
  | succ fuel ih =>
      cases other with
      | zero =>
          rw [eq_nil_of_length_eq_zero (Nat.le_zero.mp otherEnough)]
          exact ⟨rfl, nofun⟩
      | succ other =>
          obtain ⟨left, stops⟩ | ⟨attr, rest, inside, behind, less, goesOn⟩ :=
            @attrsFrom_step order input
          · rw [stops, stops]
            exact ⟨rfl, nofun⟩
          · obtain ⟨same, within⟩ := @ih other rest (by omega) (by omega)
            rw [goesOn, goesOn, same]
            rw [same] at within
            exact ⟨rfl, forall_mem_cons.mpr
              ⟨inside, fun later member => (within later member).trans behind.isInfix⟩⟩

end Reading

/-- Rules are read back as they are declared if and only if they agree with their family
and with the byte order of the host; and the parser stops within any input. -/
theorem rules_readBack_iff (order : ByteOrder) :
    (∀ rule, (Agreeing order rule ∧
        ∀ name ∈ rule.iif.toList ++ rule.oif.toList, (asBytes name.1).length ≤ 65530) →
      ReadsBack order rule) ∧
    (∀ rule, ReadsBack order rule → Agreeing order rule ∨
      ∃ name ∈ rule.iif.toList ++ rule.oif.toList, 65530 < (asBytes name.1).length) ∧
    ∀ input : List UInt8,
      (∀ fuel, input.length ≤ fuel → RouteEvents.attrsFrom order fuel (input.drop FibRuleHdr.SIZE) =
        RouteEvents.attrsFrom order input.length (input.drop FibRuleHdr.SIZE)) ∧
      ∀ attr ∈ RuleMessage.attrs order input, attr.2 <:+: input := by
  refine ⟨fun rule ⟨agreeing, short⟩ => (readsBack_named_iff short).mpr agreeing, fun rule reads => ?_,
    fun input => ?_⟩
  · by_cases short : ∀ name ∈ rule.iif.toList ++ rule.oif.toList, (asBytes name.1).length ≤ 65530
    · exact .inl ((readsBack_named_iff short).mp reads)
    · simp only [not_forall, Nat.not_le] at short
      obtain ⟨name, isName, long⟩ := short
      exact .inr ⟨name, isName, long⟩
  · have inside : (input.drop FibRuleHdr.SIZE).length ≤ input.length := by
      rw [length_drop]
      omega
    exact ⟨fun fuel enough => (attrsFrom_within (inside.trans enough) inside).1,
      fun attr member => ((attrsFrom_within inside inside).2 attr member).trans
        (drop_suffix ..).isInfix⟩

/-- A rule for the source port 80. -/
def fromPort80 : Declared where
  family := Rule.AF_INET
  priority := none
  source := []
  destination := []
  iif := none
  oif := none
  mark := none
  table := 254
  action := .toTbl
  ipproto := none
  sport := some (80, 80)
  dport := none
  isAction := mem_cons_self

/-- On a big-endian host it is read as one for the port 20480. -/
theorem not_readsBack_fromPort80 : ¬ ReadsBack .big fromPort80 := by
  rintro ⟨-, msg, parsed, shows⟩
  have read : (RuleMessage.parse .big ((build .big fromPort80.builder).buf.drop
      NLMSG_HDRLEN)).map RuleMessage.sportRange = some (some (20480, 20480)) := by
    decide +kernel
  rw [parsed, Option.map_some, shows.sportRange] at read
  exact absurd read (by decide)

end Nlink.RuleCodec
