import Nlink.Foundation.EraseFirst
import Nlink.NetlinkRoute

namespace Nlink.Rule

open Foundation Netlink List

/-!
# Routing rules

A builder collects what a rule matches and does, and writes a header and
attributes.  Adding and deleting a rule write the same ones, so a deletion asks
for the builder's defaults as well.
-/

def AF_UNSPEC : UInt8 := 0
def AF_INET : UInt8 := 2
def AF_INET6 : UInt8 := 10

/-- `AddressFamily`. -/
structure AddressFamily where
  raw : UInt8
  deriving DecidableEq

namespace AddressFamily

def unspec : AddressFamily := ⟨AF_UNSPEC⟩
def v4 : AddressFamily := ⟨AF_INET⟩
def v6 : AddressFamily := ⟨AF_INET6⟩

def asU8 (family : AddressFamily) : UInt8 :=
  family.raw

end AddressFamily

inductive IpAddr where
  | v4 (addr : Ipv4Addr)
  | v6 (addr : Ipv6Addr)

/-- The address's bytes. -/
def IpAddr.octets : IpAddr → List UInt8
  | .v4 addr => Ipv4Addr.octets addr
  | .v6 addr => Ipv6Addr.octets addr

/-- `FibRuleHdr`. -/
structure FibRuleHdr where
  family : UInt8
  dstLen : UInt8
  srcLen : UInt8
  tos : UInt8
  table : UInt8
  res1 : UInt8
  res2 : UInt8
  action : UInt8
  flags : BitVec 32

namespace FibRuleHdr

def SIZE : Nat := 12

/-- `FibRuleHdr::new`. -/
def new : FibRuleHdr :=
  { family := 0, dstLen := 0, srcLen := 0, tos := 0, table := 0, res1 := 0,
    res2 := 0, action := 0, flags := 0 }

def asBytes (order : ByteOrder) (hdr : FibRuleHdr) : List UInt8 :=
  [hdr.family, hdr.dstLen, hdr.srcLen, hdr.tos, hdr.table, hdr.res1, hdr.res2,
    hdr.action] ++ order.toBytes 4 hdr.flags.toNat

/-- Read a header off the front of the bytes. -/
def fromBytes (order : ByteOrder) : List UInt8 → Option FibRuleHdr
  | family :: dstLen :: srcLen :: tos :: table :: res1 :: res2 :: action ::
      f0 :: f1 :: f2 :: f3 :: _ =>
      some
        { family := family, dstLen := dstLen, srcLen := srcLen, tos := tos,
          table := table, res1 := res1, res2 := res2, action := action,
          flags := readU32 order [f0, f1, f2, f3] }
  | _ => none

theorem asBytes_length (order : ByteOrder) (hdr : FibRuleHdr) :
    (hdr.asBytes order).length = SIZE := by
  rw [asBytes, length_append, ByteOrder.toBytes_length]
  rfl

theorem fromBytes_asBytes (order : ByteOrder) (hdr : FibRuleHdr) (rest : List UInt8) :
    fromBytes order (hdr.asBytes order ++ rest) = some hdr := by
  have flags := readU32_toBytes order hdr.flags
  obtain ⟨f0, f1, f2, f3, bytes⟩ := length_eq_four.mp (order.toBytes_length 4 hdr.flags.toNat)
  rw [bytes] at flags
  rw [asBytes, bytes]
  exact congrArg (fun flags => some { hdr with flags := flags }) flags

end FibRuleHdr

namespace FraAttr

def Dst : Nat := 1
def Src : Nat := 2
def Iifname : Nat := 3
def Priority : Nat := 6
def Fwmark : Nat := 10
def Table : Nat := 15
def Fwmask : Nat := 16
def Oifname : Nat := 17
def IpProto : Nat := 22
def Sport : Nat := 23
def Dport : Nat := 24

end FraAttr

inductive FibRuleAction where
  | unspec
  | toTbl
  | goto
  | nop
  | res3
  | res4
  | blackhole
  | unreachable
  | prohibit

def FibRuleAction.toU8 : FibRuleAction → UInt8
  | .unspec => 0
  | .toTbl => 1
  | .goto => 2
  | .nop => 3
  | .res3 => 4
  | .res4 => 5
  | .blackhole => 6
  | .unreachable => 7
  | .prohibit => 8

/-- `RuleBuilder`. -/
structure RuleBuilder where
  family : UInt8
  priority : Option (BitVec 32)
  src : Option IpAddr
  srcLen : UInt8
  dst : Option IpAddr
  dstLen : UInt8
  iif : Option String
  oif : Option String
  fwmark : Option (BitVec 32)
  fwmask : Option (BitVec 32)
  table : BitVec 32
  action : FibRuleAction
  ipproto : Option UInt8
  sport : Option (BitVec 16 × BitVec 16)
  dport : Option (BitVec 16 × BitVec 16)

namespace RuleBuilder

/-- `RuleBuilder::new`: a lookup in the main table. -/
def new (family : UInt8) : RuleBuilder where
  family := family
  priority := none
  src := none
  srcLen := 0
  dst := none
  dstLen := 0
  iif := none
  oif := none
  fwmark := none
  fwmask := none
  table := 254
  action := .toTbl
  ipproto := none
  sport := none
  dport := none

/-- `priority`. -/
def withPriority (builder : RuleBuilder) (priority : BitVec 32) :
    RuleBuilder :=
  { builder with priority := some priority }

variable (order : ByteOrder)

/-- A port range, low bytes first. -/
def rangeBytes (range : BitVec 16 × BitVec 16) : List UInt8 :=
  ByteOrder.little.toBytes 2 range.1.toNat ++ ByteOrder.little.toBytes 2 range.2.toNat

/-- An attribute that is there if its value is. -/
def appendSome {α : Type} (value : Option α) (append : MessageBuilder → α → MessageBuilder)
    (msg : MessageBuilder) : MessageBuilder :=
  match value with
  | some given => append msg given
  | none => msg

def header (builder : RuleBuilder) : FibRuleHdr :=
  { FibRuleHdr.new with
    family := builder.family
    srcLen := builder.srcLen
    dstLen := builder.dstLen
    action := builder.action.toU8
    table := if builder.table.toNat ≤ 255 then UInt8.ofNat builder.table.toNat else 0 }

/-- `build_internal`, behind the header of the message. -/
def buildInternal (builder : RuleBuilder) (msg : MessageBuilder) :
    MessageBuilder :=
  let msg := msg.appendBytes (builder.header.asBytes order)
  let msg := appendSome builder.priority
    (fun msg prio => msg.appendAttrU32 order FraAttr.Priority prio.toNat) msg
  let msg := appendSome builder.src
    (fun msg addr => msg.appendAttr order FraAttr.Src addr.octets) msg
  let msg := appendSome builder.dst
    (fun msg addr => msg.appendAttr order FraAttr.Dst addr.octets) msg
  let msg := appendSome builder.iif
    (fun msg iif => msg.appendAttrStr order FraAttr.Iifname iif) msg
  let msg := appendSome builder.oif
    (fun msg oif => msg.appendAttrStr order FraAttr.Oifname oif) msg
  let msg := appendSome builder.fwmark
    (fun msg mark =>
      appendSome builder.fwmask (fun msg mask => msg.appendAttrU32 order FraAttr.Fwmask mask.toNat)
        (msg.appendAttrU32 order FraAttr.Fwmark mark.toNat)) msg
  let msg :=
    if 255 < builder.table.toNat then
      msg.appendAttrU32 order FraAttr.Table builder.table.toNat
    else
      msg
  let msg := appendSome builder.ipproto
    (fun msg proto => msg.appendAttr order FraAttr.IpProto [proto]) msg
  let msg := appendSome builder.sport
    (fun msg range => msg.appendAttr order FraAttr.Sport (rangeBytes range)) msg
  appendSome builder.dport
    (fun msg range => msg.appendAttr order FraAttr.Dport (rangeBytes range)) msg

def RTM_DELRULE : Nat := 33

/-- `build_delete`. -/
def buildDelete (builder : RuleBuilder) : MessageBuilder :=
  builder.buildInternal order (.new order RTM_DELRULE (NLM_F_REQUEST ||| NLM_F_ACK))

end RuleBuilder

/-- `RuleMessage`, as far as a flush reads it. -/
structure RuleMessage where
  family : UInt8
  priority : BitVec 32

/-- `RuleMessage::is_default`. -/
def RuleMessage.isDefault (message : RuleMessage) : Bool :=
  message.priority == 0 || message.priority == 32766 || message.priority == 32767

/-!
## Routing rules in the kernel

The kernel holds a list of rules.  A deletion removes the first rule of its
family that agrees with everything the request says; what is absent, or zero in
the header, is not compared.
-/

def EAFNOSUPPORT : Nat := 97

/-- A rule as the kernel holds it. -/
structure KernelRule where
  family : UInt8
  action : UInt8
  table : BitVec 32
  priority : BitVec 32
  src : Option (UInt8 × List UInt8)
  dst : Option (UInt8 × List UInt8)
  iif : Option (List UInt8)
  oif : Option (List UInt8)
  mark : BitVec 32
  markMask : BitVec 32
  ipProto : UInt8
  sport : Option (List UInt8)
  dport : Option (List UInt8)

def KernelRule.message (rule : KernelRule) : RuleMessage where
  family := rule.family
  priority := rule.priority

/-- What a deletion asks for. -/
structure Criteria where
  family : UInt8
  action : UInt8
  table : BitVec 32
  priority : Option (BitVec 32)
  src : Option (UInt8 × List UInt8)
  dst : Option (UInt8 × List UInt8)
  iif : Option (List UInt8)
  oif : Option (List UInt8)
  mark : Option (BitVec 32)
  markMask : Option (BitVec 32)
  ipProto : Option UInt8
  sport : Option (List UInt8)
  dport : Option (List UInt8)

namespace Criteria

variable {α : Type} [DecidableEq α]

/-- A value that is asked for is the rule's. -/
def agrees (asked : Option α) (has : α) : Bool :=
  match asked with
  | some value => value = has
  | none => true

/-- The rule is one that the deletion asks for. -/
def accepts (criteria : Criteria) (rule : KernelRule) : Bool :=
  rule.family = criteria.family && (criteria.action = 0 || criteria.action = rule.action) &&
    (criteria.table = 0 || criteria.table = rule.table) &&
    agrees criteria.priority rule.priority &&
    (criteria.src.isNone || criteria.src = rule.src) &&
    (criteria.dst.isNone || criteria.dst = rule.dst) &&
    (criteria.iif.isNone || criteria.iif = rule.iif) &&
    (criteria.oif.isNone || criteria.oif = rule.oif) &&
    agrees criteria.mark rule.mark &&
    agrees criteria.markMask rule.markMask &&
    agrees criteria.ipProto rule.ipProto &&
    (criteria.sport.isNone || criteria.sport = rule.sport) &&
    (criteria.dport.isNone || criteria.dport = rule.dport)

variable (order : ByteOrder)

/-- A prefix, if it has a length. -/
def subnet (attrs : List Attribute) (attrType : Nat) (len : UInt8) : Option (UInt8 × List UInt8) :=
  if len = 0 then none else (lastOf attrs attrType).map fun addr => (len, addr)

def name (payload : List UInt8) : List UInt8 :=
  payload.takeWhile (· ≠ 0)

/-- What a request's body asks for. -/
def decode (body : List UInt8) : Option Criteria :=
  (FibRuleHdr.fromBytes order body).map fun hdr =>
    let attrs := attrIter order (body.drop FibRuleHdr.SIZE)
    { family := hdr.family
      action := hdr.action
      table :=
        ((lastOf attrs FraAttr.Table).map (readU32 order)).getD (BitVec.ofNat 32 hdr.table.toNat)
      priority := (lastOf attrs FraAttr.Priority).map (readU32 order)
      src := subnet attrs FraAttr.Src hdr.srcLen
      dst := subnet attrs FraAttr.Dst hdr.dstLen
      iif := (lastOf attrs FraAttr.Iifname).map name
      oif := (lastOf attrs FraAttr.Oifname).map name
      mark := (lastOf attrs FraAttr.Fwmark).map (readU32 order)
      markMask := (lastOf attrs FraAttr.Fwmask).map (readU32 order)
      ipProto := (lastOf attrs FraAttr.IpProto).bind List.head?
      sport := lastOf attrs FraAttr.Sport
      dport := lastOf attrs FraAttr.Dport }

end Criteria

/-- The kernel's rules and its answer after a request. -/
abbrev Answer := List KernelRule × Except Error Unit

/-- The kernel refuses a request. -/
def refuse (rules : List KernelRule) (errno : Nat) : Answer :=
  (rules, .error (.kernel errno none none))

/-- The kernel's answer to a deletion. -/
def kernelDelRule (order : ByteOrder) (rules : List KernelRule) (body : List UInt8) :
    Answer :=
  match Criteria.decode order body with
  | none => refuse rules EINVAL
  | some criteria =>
      if criteria.family = AF_UNSPEC then
        refuse rules EAFNOSUPPORT
      else if rules.any criteria.accepts then
        (rules.eraseP criteria.accepts, .ok ())
      else
        refuse rules ENOENT

namespace Connection

variable (order : ByteOrder)

/-- `del_rule`. -/
def delRule (rules : List KernelRule) (builder : RuleBuilder) : Answer :=
  kernelDelRule order rules ((builder.buildDelete order).buf.drop NLMSG_HDRLEN)

/-- `del_rule_by_priority`. -/
def delRuleByPriority (rules : List KernelRule) (family : AddressFamily)
    (priority : BitVec 32) : Answer :=
  delRule order rules ((RuleBuilder.new family.asU8).withPriority priority)

/-- `get_rules_for_family`. -/
def getRulesForFamily (rules : List KernelRule) (family : AddressFamily) : List RuleMessage :=
  let messages := rules.map KernelRule.message
  if family.asU8 = 0 then messages else messages.filter fun message => message.family = family.asU8

/-- The loop of `flush_rules`; errors are dropped. -/
def flushLoop (family : AddressFamily) : List RuleMessage → List KernelRule → List KernelRule
  | [], rules => rules
  | message :: rest, rules =>
      if message.isDefault then
        flushLoop family rest rules
      else
        flushLoop family rest (delRuleByPriority order rules family message.priority).1

/-- `flush_rules`. -/
def flushRules (rules : List KernelRule) (family : AddressFamily) : Answer :=
  (flushLoop order family (getRulesForFamily rules family) rules, .ok ())

end Connection

/-!
## Which routing rules are removed

A deletion by priority asks for the builder's main table and lookup action too.
So it finds only rules with both, and a flush leaves all others in place.
-/

variable (order : ByteOrder)

/-- The rules that a deletion by priority can find in a family. -/
def plain (family : AddressFamily) (rule : KernelRule) : Bool :=
  rule.family = family.raw && rule.action = FibRuleAction.toTbl.toU8 && rule.table = 254

def byPriority (family : AddressFamily) (priority : BitVec 32) : Criteria where
  family := family.raw
  action := FibRuleAction.toTbl.toU8
  table := 254
  priority := some priority
  src := none
  dst := none
  iif := none
  oif := none
  mark := none
  markMask := none
  ipProto := none
  sport := none
  dport := none

theorem decode_byPriority (family : AddressFamily) (priority : BitVec 32) : Criteria.decode order
        (((((RuleBuilder.new family.asU8).withPriority priority).buildDelete
          order).buf).drop NLMSG_HDRLEN) =
      some (byPriority family priority) := by
  let builder := (RuleBuilder.new family.asU8).withPriority priority
  let attrs : List Attribute := [(FraAttr.Priority, order.toBytes 4 priority.toNat)]
  have header : Appends (fun msg => msg.appendBytes (builder.header.asBytes order)) _ :=
    appends_header (by rw [FibRuleHdr.asBytes_length]; decide)
  have whole := header.comp (appends_one order FraAttr.Priority (order.toBytes 4 priority.toNat))
  have start :
      (MessageBuilder.new order RuleBuilder.RTM_DELRULE
        (NLM_F_REQUEST ||| NLM_F_ACK)).buf.length = NLMSG_HDRLEN := by
    simp [MessageBuilder.new, NlMsgHdr.asBytes, NLMSG_HDRLEN]
  have written := whole.appended (.new order RuleBuilder.RTM_DELRULE (NLM_F_REQUEST ||| NLM_F_ACK))
    (by rw [start]; decide)
  change (builder.buildDelete order).buf = _ at written
  have plainType : ∀ attr ∈ attrs, attr.1 < NLA_F_NET_BYTEORDER :=
    forall_mem_singleton.mpr (show FraAttr.Priority < _ by decide)
  have short : ∀ attr ∈ attrs, NLA_HDRLEN + attr.2.length ≤ 65535 := by
    refine forall_mem_singleton.mpr ?_
    rw [ByteOrder.toBytes_length]
    decide
  change Criteria.decode order ((builder.buildDelete order).buf.drop _) = _
  rw [written, drop_left' start, Criteria.decode, FibRuleHdr.fromBytes_asBytes, drop_left'
    (FibRuleHdr.asBytes_length ..), attrIter_encodeAll_plain order plainType short]
  refine congrArg some ?_
  change ({ byPriority family priority with
    priority := some (readU32 order (order.toBytes 4 priority.toNat)) } : Criteria) = _
  rw [readU32_toBytes]
  rfl

theorem accepts_byPriority (family : AddressFamily) (priority : BitVec 32) :
    (byPriority family priority).accepts =
      matchesKey (plain family) KernelRule.priority priority := by
  funext rule
  have action : FibRuleAction.toTbl.toU8 ≠ 0 := by decide
  have isAccepted : (byPriority family priority).accepts rule = true ↔
        ((rule.family = family.raw ∧ FibRuleAction.toTbl.toU8 = rule.action) ∧
          254 = rule.table) ∧ priority = rule.priority := by
    have compared : (byPriority family priority).accepts rule =
          (decide (rule.family = family.raw) && decide (FibRuleAction.toTbl.toU8 = rule.action) &&
            decide (254 = rule.table) && decide (priority = rule.priority)) := by
      rw [Criteria.accepts]
      change (decide (rule.family = family.raw) &&
        (decide (FibRuleAction.toTbl.toU8 = 0) ||
          decide (FibRuleAction.toTbl.toU8 = rule.action)) &&
        (decide ((254 : BitVec 32) = 0) || decide (254 = rule.table)) &&
        decide (priority = rule.priority) && true && true && true && true &&
        true && true && true && true && true) = _
      simp only [Bool.and_true, action, decide_false, Bool.false_or, BitVec.reduceEq]
    rw [compared]
    simp only [Bool.and_eq_true, decide_eq_true_eq]
  rw [Bool.eq_iff_iff, isAccepted]
  simp only [matchesKey, plain, Bool.and_eq_true, decide_eq_true_eq, beq_iff_eq]
  rw [eq_comm (b := rule.action), eq_comm (b := rule.table), eq_comm (b := rule.priority)]

theorem delRuleByPriority_eq (rules : List KernelRule) (family : AddressFamily)
    (priority : BitVec 32) :
    Connection.delRuleByPriority order rules family priority =
      if family.raw = AF_UNSPEC then
        refuse rules EAFNOSUPPORT
      else if rules.any
          (matchesKey (plain family) KernelRule.priority priority) then
        (rules.eraseP (matchesKey (plain family) KernelRule.priority priority), .ok ())
      else
        refuse rules ENOENT := by
  rw [Connection.delRuleByPriority, Connection.delRule, kernelDelRule, decode_byPriority]
  dsimp only
  rw [accepts_byPriority]
  rfl

/-- One rule of a family with a priority is removed if there is one; else
nothing is changed, and the deletion fails. -/
def RemovedOne (family : AddressFamily) (priority : BitVec 32)
    (rules : List KernelRule) (answer : Answer) : Prop :=
  if ∃ rule ∈ rules, rule.family = family.raw ∧ rule.priority = priority then
    answer.2 = .ok () ∧ ∃ before rule after, rules = before ++ rule :: after ∧
        rule.family = family.raw ∧ rule.priority = priority ∧
        answer.1 = before ++ after
  else
    answer.1 = rules ∧ ∃ error, answer.2 = .error error

variable {family : AddressFamily}

theorem delRuleByPriority_removedOne_iff (isFamily : family = .v4 ∨ family = .v6)
    (priority : BitVec 32) (rules : List KernelRule) :
    RemovedOne family priority rules (Connection.delRuleByPriority order rules family priority) ↔
      ((∃ rule ∈ rules, rule.family = family.raw ∧ rule.priority = priority) → ∃ rule ∈ rules,
          plain family rule = true ∧ rule.priority = priority) := by
  have specified : family.raw ≠ AF_UNSPEC := by obtain rfl | rfl := isFamily <;> decide
  have isMatch (rule : KernelRule) :
      matchesKey (plain family) KernelRule.priority priority rule = true ↔
        plain family rule = true ∧ rule.priority = priority := by
    rw [matchesKey, Bool.and_eq_true, beq_iff_eq]
  rw [delRuleByPriority_eq, if_neg specified]
  by_cases found : ∃ rule ∈ rules, plain family rule = true ∧ rule.priority = priority
  · obtain ⟨rule, member, isPlain, isPriority⟩ := found
    have accepted := (isMatch rule).mpr ⟨isPlain, isPriority⟩
    obtain ⟨first, before, after, _, isFirst, split, left⟩ := exists_of_eraseP member accepted
    obtain ⟨firstPlain, firstPriority⟩ := (isMatch first).mp isFirst
    have inFamily : first.family = family.raw := by
      rw [plain, Bool.and_eq_true, Bool.and_eq_true] at firstPlain
      exact of_decide_eq_true firstPlain.1.1
    have there : ∃ rule ∈ rules, rule.family = family.raw ∧ rule.priority = priority :=
      ⟨first, by rw [split]; simp, inFamily, firstPriority⟩
    rw [if_pos (any_eq_true.mpr ⟨rule, member, accepted⟩), RemovedOne, if_pos there]
    exact iff_of_true ⟨rfl, before, first, after, split, inFamily, firstPriority, left⟩
      fun _ => ⟨rule, member, isPlain, isPriority⟩
  · have noMatch : ¬ rules.any (matchesKey (plain family) KernelRule.priority priority) = true := by
      intro some
      obtain ⟨rule, member, accepted⟩ := any_eq_true.mp some
      exact found ⟨rule, member, (isMatch rule).mp accepted⟩
    rw [if_neg noMatch, RemovedOne]
    by_cases there : ∃ rule ∈ rules, rule.family = family.raw ∧ rule.priority = priority
    · rw [if_pos there]
      refine iff_of_false ?_ fun implies => found (implies there)
      rintro ⟨failed, _⟩
      cases failed
    · rw [if_neg there]
      exact iff_of_true ⟨rfl, _, rfl⟩ fun some => absurd some there

/-- The rules that a flush has to leave in place. -/
def keeps (family : AddressFamily) (rule : KernelRule) : Bool :=
  rule.message.isDefault ||
    if family = .unspec then
      rule.family ≠ AF_INET && rule.family ≠ AF_INET6
    else
      rule.family ≠ family.raw

/-- All other rules are gone, and these are as they were. -/
def Flushed (family : AddressFamily) (before after : List KernelRule) : Prop :=
  (∀ rule ∈ after, keeps family rule = true) ∧
    after.filter (keeps family) = before.filter (keeps family)

theorem flushLoop_unspec (messages : List RuleMessage) (rules : List KernelRule) :
    Connection.flushLoop order .unspec messages rules = rules := by
  induction messages with
  | nil => rfl
  | cons message rest ih =>
      have refused :
          (Connection.delRuleByPriority order rules .unspec message.priority).1 = rules := by
        rw [delRuleByPriority_eq]
        rfl
      rw [Connection.flushLoop, refused]
      cases message.isDefault <;> exact ih

theorem flushLoop_eq (specified : family.raw ≠ AF_UNSPEC) (messages : List RuleMessage)
    (rules : List KernelRule) :
    Connection.flushLoop order family messages rules = eraseKeys (plain family) KernelRule.priority
        ((messages.filter fun message => !message.isDefault).map RuleMessage.priority) rules := by
  induction messages generalizing rules with
  | nil => rfl
  | cons message rest ih =>
      rw [Connection.flushLoop, filter_cons]
      cases isDefault : message.isDefault with
      | true => exact ih rules
      | false =>
          have removed :
              (Connection.delRuleByPriority order rules family message.priority).1 = rules.eraseP
                  (matchesKey (plain family) KernelRule.priority message.priority) := by
            rw [delRuleByPriority_eq, if_neg specified]
            split
            · rfl
            · rename_i noMatch
              refine (eraseP_of_forall_not fun rule member accepted => noMatch ?_).symm
              exact any_eq_true.mpr ⟨rule, member, accepted⟩
          rw [removed]
          exact ih _

/-- The priorities that a flush goes through. -/
def flushed (family : AddressFamily) (rules : List KernelRule) : List (BitVec 32) :=
  (rules.filter fun rule =>
    decide (rule.family = family.raw) && !rule.message.isDefault).map KernelRule.priority

theorem flushRules_eq (specified : family.raw ≠ AF_UNSPEC) (rules : List KernelRule) :
    Connection.flushRules order rules family =
      (eraseKeys (plain family) KernelRule.priority (flushed family rules) rules, .ok ()) := by
  have dumped :
      (((Connection.getRulesForFamily rules family).filter
          fun message => !message.isDefault).map RuleMessage.priority) =
        flushed family rules := by
    have isRaw : ¬ family.asU8 = 0 := specified
    rw [Connection.getRulesForFamily, if_neg isRaw, filter_filter, filter_map, map_map, flushed]
    refine congrArg (List.map KernelRule.priority) (filter_congr ?_)
    intro rule _
    exact Bool.and_comm _ _
  rw [Connection.flushRules, flushLoop_eq order specified, dumped]

theorem plain_of_family {rule : KernelRule} (isPlain : plain family rule = true) :
    rule.family = family.raw := by
  rw [plain, Bool.and_eq_true, Bool.and_eq_true] at isPlain
  exact of_decide_eq_true isPlain.1.1

theorem keeps_eq_false_iff (specified : family.raw ≠ AF_UNSPEC) (rule : KernelRule) :
    keeps family rule = false ↔ rule.family = family.raw ∧ rule.message.isDefault = false := by
  have notUnspec : family ≠ .unspec := by
    rintro rfl
    exact specified rfl
  rw [keeps, if_neg notUnspec, Bool.or_eq_false_iff, decide_eq_false_iff_not, not_not]
  exact and_comm

/-- A flush of a family does as asked exactly if all rules to remove look up
the main table. -/
theorem flushRules_flushed_iff (specified : family.raw ≠ AF_UNSPEC) (rules : List KernelRule) :
    Flushed family rules (Connection.flushRules order rules family).1 ↔
      ∀ rule ∈ rules, keeps family rule = false → plain family rule = true := by
  have isRemoved := keeps_eq_false_iff specified
  rw [flushRules_eq order specified]
  have untouched :
      (eraseKeys (plain family) KernelRule.priority (flushed family rules)
          rules).filter (keeps family) = rules.filter (keeps family) := by
    refine filter_eraseKeys_of_disjoint (fun key listed rule accepted => ?_) _
    obtain ⟨isPlain, isKey⟩ := Bool.and_eq_true_iff.mp accepted
    obtain ⟨other, inFlush, samePriority⟩ := mem_map.mp listed
    have notDefault := (Bool.and_eq_true_iff.mp (mem_filter.mp inFlush).2).2
    refine (isRemoved rule).mpr ⟨plain_of_family isPlain, ?_⟩
    rw [Bool.not_eq_true'] at notDefault
    rw [← notDefault, RuleMessage.isDefault, RuleMessage.isDefault, KernelRule.message,
      KernelRule.message, samePriority, ← beq_iff_eq.mp isKey]
  constructor
  · rintro ⟨gone, _⟩ rule member toRemove
    by_contra notPlain
    have stays : rule ∈ eraseKeys (plain family) KernelRule.priority (flushed family rules) rules :=
      mem_eraseKeys_of_not_eligible member (Bool.eq_false_iff.mpr notPlain)
    have kept := gone rule stays
    rw [toRemove] at kept
    cases kept
  · intro allPlain
    refine ⟨fun rule left => ?_, untouched⟩
    by_contra notKept
    have toRemove := Bool.eq_false_iff.mpr notKept
    obtain ⟨inFamily, notDefault⟩ := (isRemoved rule).mp toRemove
    have member := (eraseKeys_sublist _ _).subset left
    refine not_mem_eraseKeys (allPlain rule member toRemove) ?_ left
    -- Each match in the table has a copy of its priority in the flush.
    rw [flushed, count_eq_countP, countP_map, countP_filter]
    refine countP_mono_left fun other _ accepted => ?_
    obtain ⟨isPlain, isKey⟩ := Bool.and_eq_true_iff.mp accepted
    have samePriority := beq_iff_eq.mp isKey
    rw [Function.comp_apply, Bool.and_eq_true, Bool.and_eq_true, beq_iff_eq, Bool.not_eq_true']
    refine ⟨samePriority, decide_eq_true (plain_of_family isPlain), ?_⟩
    rw [← notDefault, RuleMessage.isDefault, RuleMessage.isDefault,
      KernelRule.message, KernelRule.message, samePriority]

theorem flushRules_unspec_iff (rules : List KernelRule) :
    Flushed .unspec rules (Connection.flushRules order rules .unspec).1 ↔
      ∀ rule ∈ rules, keeps .unspec rule = true := by
  rw [Connection.flushRules, flushLoop_unspec]
  exact and_iff_left rfl

/-- Which rules are removed: a deletion by priority removes one as asked unless
all rules of the family with the priority look up another table or do
something else, and a flush does as asked unless there is such a rule to
remove, or any rule to remove without a family. -/
theorem rules_removed_iff (rules : List KernelRule) :
    (∀ family : AddressFamily, family = .v4 ∨ family = .v6 → ∀ priority : BitVec 32,
        (RemovedOne family priority rules
            (Connection.delRuleByPriority order rules family priority) ↔
          ((∃ rule ∈ rules, rule.family = family.raw ∧ rule.priority = priority) → ∃ rule ∈ rules,
              plain family rule = true ∧ rule.priority = priority))) ∧
    ∀ family : AddressFamily, family = .v4 ∨ family = .v6 ∨ family = .unspec →
      (Connection.flushRules order rules family).2 = .ok () ∧
        (Flushed family rules (Connection.flushRules order rules family).1 ↔
          ∀ rule ∈ rules, keeps family rule = false →
            family ≠ .unspec ∧ plain family rule = true) := by
  refine ⟨fun family isFamily priority =>
    delRuleByPriority_removedOne_iff order isFamily priority rules,
    fun family isFamily => ⟨rfl, ?_⟩⟩
  by_cases isUnspec : family = .unspec
  · rw [isUnspec, flushRules_unspec_iff]
    refine forall₂_congr fun rule _ => ?_
    cases keeps .unspec rule <;> simp
  · have specified : family.raw ≠ AF_UNSPEC := by
      obtain rfl | rfl | rfl := isFamily
      · decide
      · decide
      · exact absurd rfl isUnspec
    rw [flushRules_flushed_iff order specified]
    refine forall₂_congr fun rule _ => ?_
    simp [isUnspec]

/-- A rule that looks up table 100, as a caller may have added it. -/
def lookup100 : KernelRule where
  family := AF_INET
  action := FibRuleAction.toTbl.toU8
  table := 100
  priority := 1000
  src := none
  dst := none
  iif := none
  oif := none
  mark := 0
  markMask := 0
  ipProto := 0
  sport := none
  dport := none

/-- The rule is there, and neither a deletion by its priority nor a flush
removes it; the flush reports success. -/
theorem lookup100_stays : Connection.delRuleByPriority .little [lookup100] .v4 1000 =
        refuse [lookup100] ENOENT ∧
      Connection.flushRules .little [lookup100] .v4 = ([lookup100], .ok ()) := by
  have noMatch : ¬ [lookup100].any (matchesKey (plain .v4) KernelRule.priority 1000) = true := by
    decide
  have stays : Connection.delRuleByPriority .little [lookup100] .v4 1000 =
        refuse [lookup100] ENOENT := by
    rw [delRuleByPriority_eq,
      if_neg (show AddressFamily.v4.raw ≠ AF_UNSPEC by decide), if_neg noMatch]
  refine ⟨stays, ?_⟩
  rw [Connection.flushRules]
  change (Connection.flushLoop .little .v4 [lookup100.message] _, _) = _
  rw [Connection.flushLoop, Connection.flushLoop, Connection.flushLoop]
  change ((Connection.delRuleByPriority .little [lookup100] .v4 1000).1, _) = _
  rw [stays]
  rfl

end Nlink.Rule
