import Mathlib.Data.Nat.Bitwise
import Nlink.NetlinkAttrCut

namespace Nlink.Mpls

open Foundation Netlink List Nftables.Attrs

/-!
# MPLS routes

An MPLS route forwards packets with a label: it pops the label or swaps it for
a stack of labels.  An encapsulation pushes a stack onto packets of an IP
route.  A stack is written as words of a label, a traffic class, a
bottom-of-stack bit and a time to live.
-/

def AF_MPLS : UInt8 := 28

def AF_INET : Nat := 2
def AF_INET6 : Nat := 10

def lwtunnelEncap.MPLS : Nat := 1

namespace mplsTunnel

def DST : Nat := 1
def TTL : Nat := 2

end mplsTunnel

def mplsLabel.MAX : BitVec 32 := 0xFFFFF

/-- `MplsLabelEntry`; the word is in network byte order in memory. -/
structure MplsLabelEntry where
  entry : BitVec 32

namespace MplsLabelEntry

/-- `MplsLabelEntry::new`. -/
def new (label : BitVec 32) : MplsLabelEntry where
  entry := (label &&& 0xFFFFF) <<< 12

/-- `MplsLabelEntry::bottom`. -/
def bottom (label : BitVec 32) (ttl : UInt8) : MplsLabelEntry where
  entry := (label &&& 0xFFFFF) <<< 12 ||| (1 : BitVec 32) <<< 8 ||| ttl.toBitVec.setWidth 32

def label (word : MplsLabelEntry) : BitVec 32 :=
  word.entry >>> 12 &&& 0xFFFFF

def tc (word : MplsLabelEntry) : BitVec 8 :=
  (word.entry >>> 9 &&& 0x7).setWidth 8

def isBos (word : MplsLabelEntry) : Bool :=
  word.entry &&& 0x100 != 0

def ttl (word : MplsLabelEntry) : BitVec 8 :=
  (word.entry &&& 0xFF).setWidth 8

def asBytes (word : MplsLabelEntry) : List UInt8 :=
  ByteOrder.big.toBytes 4 word.entry.toNat

/-- Read a word off the front of the bytes. -/
def fromBytes : List UInt8 → Option MplsLabelEntry
  | b0 :: b1 :: b2 :: b3 :: _ =>
      some { entry := BitVec.ofNat 32 (ByteOrder.big.ofBytes [b0, b1, b2, b3]) }
  | _ => none

end MplsLabelEntry

/-- `MplsLabel`. -/
structure MplsLabel where
  val : BitVec 32

/-- `MplsLabel::new_clamped`. -/
def MplsLabel.newClamped (label : BitVec 32) : MplsLabel where
  val := if label.toNat ≤ mplsLabel.MAX.toNat then label else mplsLabel.MAX

/-- The words of a stack; the last one has the bottom-of-stack bit and a time
to live. -/
def stackWords (ttl : UInt8) : List (BitVec 32) → List MplsLabelEntry
  | [] => []
  | [label] => [.bottom label ttl]
  | label :: next :: rest => .new label :: stackWords ttl (next :: rest)

/-- `MplsEncap`. -/
structure MplsEncap where
  labels : List MplsLabel
  ttl : Option UInt8

namespace MplsEncap

/-- `MplsEncap::new`. -/
def new : MplsEncap where
  labels := []
  ttl := none

/-- The calls that build an encapsulation. -/
inductive Call where
  | label (label : BitVec 32)
  | labels (labels : List (BitVec 32))
  | ttl (ttl : UInt8)

def call (encap : MplsEncap) : Call → MplsEncap
  | .label label => { encap with labels := encap.labels ++ [.newClamped label] }
  | .labels labels => { encap with labels := encap.labels ++ labels.map .newClamped }
  | .ttl ttl => { encap with ttl := some ttl }

def build (calls : List Call) : MplsEncap :=
  calls.foldl call new

/-- `encode_labels`. -/
def encodeLabels (encap : MplsEncap) : List UInt8 :=
  (stackWords (encap.ttl.getD 255) (encap.labels.map MplsLabel.val)).flatMap MplsLabelEntry.asBytes

/-- `write_to`. -/
def writeTo (order : ByteOrder) (encap : MplsEncap) (msg : MessageBuilder) :
    MessageBuilder :=
  if encap.labels.isEmpty then
    msg
  else
    let msg := msg.appendAttrU16 order RtaAttr.ENCAP_TYPE lwtunnelEncap.MPLS
    msg.nest order RtaAttr.ENCAP fun msg =>
      let msg := msg.appendAttr order mplsTunnel.DST encap.encodeLabels
      match encap.ttl with
      | some ttl => msg.appendAttrU8 order mplsTunnel.TTL ttl.toNat
      | none => msg

end MplsEncap

inductive IpAddr where
  | v4 (addr : Ipv4Addr)
  | v6 (addr : Ipv6Addr)

/-- `MplsAction`. -/
inductive MplsAction where
  | pop
  | swap (labels : List MplsLabel)

/-- `MplsRoute`. -/
structure MplsRoute where
  label : MplsLabel
  action : MplsAction
  oif : Option (BitVec 32)
  via : Option IpAddr
  protocol : UInt8

namespace MplsRoute

variable (order : ByteOrder)

/-- The labels of a stack, up to its bottom. -/
def outLabels : List UInt8 → List MplsLabel
  | b0 :: b1 :: b2 :: b3 :: rest =>
      match MplsLabelEntry.fromBytes [b0, b1, b2, b3] with
      | some word => ⟨word.label⟩ :: if word.isBos then [] else outLabels rest
      | none => outLabels rest
  | _ => []

/-- What a next hop's payload says, if it says anything. -/
def viaOf (payload : List UInt8) : Option IpAddr :=
  let family := (readU16 order payload).toNat
  if family = AF_INET ∧ 6 ≤ payload.length then
    some (.v4 (Ipv4Addr.fromOctets ((payload.drop 2).take 4)))
  else if family = AF_INET6 ∧ 18 ≤ payload.length then
    some (.v6 (Ipv6Addr.fromOctets ((payload.drop 2).take 16)))
  else
    none

def parseAttr (found : MplsRoute) (attr : Attribute) : MplsRoute :=
  if attr.1 = RtaAttr.DST then
    match MplsLabelEntry.fromBytes attr.2 with
    | some word => { found with label := ⟨word.label⟩ }
    | none => found
  else if attr.1 = RtaAttr.NEWDST then
    let labels := outLabels attr.2
    if labels.isEmpty then found else { found with action := .swap labels }
  else if attr.1 = RtaAttr.OIF ∧ 4 ≤ attr.2.length then
    { found with oif := some (readU32 order attr.2) }
  else if attr.1 = RtaAttr.VIA ∧ 6 ≤ attr.2.length then
    match viaOf order attr.2 with
    | some addr => { found with via := some addr }
    | none => found
  else
    found

/-- Nothing is found yet. -/
def start (protocol : UInt8) : MplsRoute where
  label := ⟨0⟩
  action := .pop
  oif := none
  via := none
  protocol := protocol

/-- `parse`. -/
def parse (data : List UInt8) : Except Error MplsRoute :=
  match RtMsg.fromBytes order data with
  | .error error => .error error
  | .ok rtmsg =>
      .ok
        ((attrIter order (data.drop RtMsg.SIZE)).foldl (parseAttr order) (start rtmsg.rtmProtocol))

end MplsRoute

/-- `MplsRouteBuilder`, without the interface, which is resolved before the
route is written. -/
structure MplsRouteBuilder where
  label : BitVec 32
  outLabels : List (BitVec 32)
  via : Option IpAddr

namespace MplsRouteBuilder

variable (order : ByteOrder)

/-- The payload of a next hop: a family in the host's byte order, and an
address. -/
def viaData : IpAddr → List UInt8
  | .v4 addr => order.toBytes 2 AF_INET ++ addr.octets
  | .v6 addr => order.toBytes 2 AF_INET6 ++ addr.octets

/-- The route header that is written. -/
def rtmsg : RtMsg :=
  { RtMsg.new with rtmFamily := AF_MPLS, rtmDstLen := 20, rtmType := 1 }

/-- `write_to`. -/
def writeTo (builder : MplsRouteBuilder) (msg : MessageBuilder)
    (ifindex : Option (BitVec 32)) : MessageBuilder :=
  let msg := msg.appendBytes (rtmsg.asBytes order)
  let msg := msg.appendAttr order RtaAttr.DST (MplsLabelEntry.bottom builder.label 0).asBytes
  let msg :=
    if builder.outLabels.isEmpty then
      msg
    else
      msg.appendAttr order RtaAttr.NEWDST
        ((stackWords 255 builder.outLabels).flatMap MplsLabelEntry.asBytes)
  let msg :=
    match ifindex with
    | some idx => msg.appendAttrU32 order RtaAttr.OIF idx.toNat
    | none => msg
  match builder.via with
  | some via => msg.appendAttr order RtaAttr.VIA (viaData order via)
  | none => msg

end MplsRouteBuilder

/-- The route header of a deletion. -/
def delRtmsg : RtMsg :=
  { RtMsg.new with rtmFamily := AF_MPLS, rtmDstLen := 20 }

/-- What `del_mpls_route` writes. -/
def delMplsRoute (order : ByteOrder) (label : BitVec 32) (msg : MessageBuilder) :
    MessageBuilder :=
  (msg.appendBytes (delRtmsg.asBytes order)).appendAttr order RtaAttr.DST
    (MplsLabelEntry.bottom label 0).asBytes

/-!
## MPLS routes in the kernel

The kernel takes a stack whose words hold neither a traffic class nor a time to
live, with the bottom of the stack in the last word.  A route's header has to
name the main table, universe scope and a unicast type.
-/

def RT_TABLE_MAIN : UInt8 := 254
def RT_SCOPE_UNIVERSE : UInt8 := 0
def RTN_UNICAST : UInt8 := 1

namespace KernelMpls

abbrev Label := BitVec 20

/-- The words of a stack, if the bytes are whole words. -/
def words : List UInt8 → Option (List MplsLabelEntry)
  | [] => some []
  | b0 :: b1 :: b2 :: b3 :: rest => do
      let word ← MplsLabelEntry.fromBytes [b0, b1, b2, b3]
      let later ← words rest
      return word :: later
  | _ => none

/-- The label of a word that has neither a traffic class nor a time to live. -/
def labelOf (word : MplsLabelEntry) : Option Label :=
  if word.ttl = 0 ∧ word.tc = 0 then some (word.label.setWidth 20) else none

/-- The labels of words with the bottom of the stack in the last one only. -/
def labelsOf : List MplsLabelEntry → Option (List Label)
  | [] => none
  | word :: rest => do
      let label ← labelOf word
      if word.isBos then
        if rest.isEmpty then some [label] else none
      else
        let labels ← labelsOf rest
        return label :: labels

/-- The labels of a stack that the kernel accepts. -/
def stack (payload : List UInt8) : Option (List Label) :=
  (words payload).bind labelsOf

variable (order : ByteOrder)

/-- The rules for a route's header. -/
def HeaderAccepted (rtmsg : RtMsg) : Prop :=
  rtmsg.rtmFamily = AF_MPLS ∧ rtmsg.rtmDstLen = 20 ∧
    rtmsg.rtmTable = RT_TABLE_MAIN ∧ rtmsg.rtmScope = RT_SCOPE_UNIVERSE ∧
    rtmsg.rtmType = RTN_UNICAST

instance (rtmsg : RtMsg) : Decidable (HeaderAccepted rtmsg) :=
  inferInstanceAs (Decidable (_ ∧ _))

/-- The label that a route is for, and the labels that it swaps it for. -/
structure RouteLabels where
  label : Label
  newLabels : List Label

/-- The labels that a route's attributes name. -/
def routeLabels (attrs : List Attribute) : Option RouteLabels :=
  match (lastOf attrs RtaAttr.DST).bind stack,
      lastOf attrs RtaAttr.NEWDST with
  | some [label], none => some { label := label, newLabels := [] }
  | some [label], some payload =>
      (stack payload).map fun labels => { label := label, newLabels := labels }
  | _, _ => none

/-- The labels of a request for a new route or for a deletion. -/
def decodeRoute (body : List UInt8) : Option RouteLabels :=
  match RtMsg.fromBytes order body with
  | .error _ => none
  | .ok rtmsg =>
      if HeaderAccepted rtmsg then routeLabels (attrIter order (body.drop RtMsg.SIZE)) else none

/-- The labels that an IP route's attributes push. -/
def decodeEncap (attrs : List Attribute) : Option (List Label) :=
  match lastOf attrs RtaAttr.ENCAP_TYPE, lastOf attrs RtaAttr.ENCAP with
  | none, none => some []
  | some encapType, some encap =>
      if encapType.take 2 = order.toBytes 2 lwtunnelEncap.MPLS then
        (lastOf (attrIter order encap) mplsTunnel.DST).bind stack
      else
        none
  | _, _ => none

/-- Labels of the kernel are the labels asked for. -/
def Names (labels : List Label) (asked : List (BitVec 32)) : Prop :=
  labels.map BitVec.toNat = asked.map BitVec.toNat

end KernelMpls

/-!
## What the kernel makes of a written stack

A word is read by division: its label is above bit twelve, and what is masked
on writing is a remainder.  The writers leave the traffic class zero and set
the bottom of the stack in the last word, where they also put a time to live.
-/

namespace MplsLabelEntry

theorem and_low_toNat (word : BitVec 32) {width : Nat} (fits : width < 32) :
    (word &&& BitVec.ofNat 32 (2 ^ width - 1)).toNat = word.toNat % 2 ^ width := by
  have small : 2 ^ width - 1 < 2 ^ 32 :=
    Nat.lt_of_le_of_lt (Nat.sub_le _ _) (Nat.pow_lt_pow_right (by decide) fits)
  rw [BitVec.toNat_and, BitVec.toNat_ofNat, Nat.mod_eq_of_lt small, Nat.and_two_pow_sub_one_eq_mod]

theorem label_toNat (word : MplsLabelEntry) :
    word.label.toNat = word.entry.toNat / 2 ^ 12 % 2 ^ 20 := by
  have low := and_low_toNat (word.entry >>> 12) (show 20 < 32 by decide)
  rwa [BitVec.toNat_ushiftRight, Nat.shiftRight_eq_div_pow] at low

theorem tc_toNat (word : MplsLabelEntry) : word.tc.toNat = word.entry.toNat / 2 ^ 9 % 2 ^ 3 := by
  have low := and_low_toNat (word.entry >>> 9) (show 3 < 32 by decide)
  rw [BitVec.toNat_ushiftRight, Nat.shiftRight_eq_div_pow] at low
  rw [tc, BitVec.toNat_setWidth]
  refine (congrArg (· % 2 ^ 8) low).trans ?_
  exact Nat.mod_eq_of_lt (by omega)

theorem ttl_toNat (word : MplsLabelEntry) : word.ttl.toNat = word.entry.toNat % 2 ^ 8 := by
  have low := and_low_toNat word.entry (show 8 < 32 by decide)
  rw [ttl, BitVec.toNat_setWidth]
  refine (congrArg (· % 2 ^ 8) low).trans ?_
  exact Nat.mod_eq_of_lt (by omega)

theorem isBos_eq (word : MplsLabelEntry) : word.isBos = word.entry.toNat.testBit 8 := by
  have bit : (word.entry &&& 0x100).toNat = (word.entry.toNat.testBit 8).toNat * 2 ^ 8 := by
    rw [BitVec.toNat_and]
    exact Nat.and_two_pow word.entry.toNat 8
  cases isSet : word.entry.toNat.testBit 8 with
  | false =>
      rw [isSet] at bit
      have zero : word.entry &&& 0x100 = 0 := BitVec.eq_of_toNat_eq bit
      rw [isBos, zero]
      rfl
  | true =>
      rw [isSet] at bit
      rw [isBos, bne_iff_ne]
      intro zero
      rw [zero] at bit
      cases bit

variable (label : BitVec 32)

theorem new_toNat : (new label).entry.toNat = label.toNat % 2 ^ 20 * 2 ^ 12 := by
  have low := and_low_toNat label (show 20 < 32 by decide)
  rw [new, BitVec.toNat_shiftLeft, Nat.shiftLeft_eq]
  refine (congrArg (· * 2 ^ 12 % 2 ^ 32) low).trans ?_
  exact Nat.mod_eq_of_lt (by omega)

theorem bottom_toNat (ttl : UInt8) : (bottom label ttl).entry.toNat =
      label.toNat % 2 ^ 20 * 2 ^ 12 + 2 ^ 8 + ttl.toNat := by
  have ttlFits := ttl.toNat_lt
  have labelled : ((new label).entry ||| (1 : BitVec 32) <<< 8).toNat =
      2 ^ 8 * (label.toNat % 2 ^ 20 * 2 ^ 4 + 1) := by
    have apart := Nat.two_pow_add_eq_or_of_lt (show 2 ^ 8 < 2 ^ 12 by decide) (label.toNat % 2 ^ 20)
    rw [BitVec.toNat_or, new_toNat, Nat.mul_comm]
    exact apart.symm.trans (by omega)
  have low : (ttl.toBitVec.setWidth 32).toNat = ttl.toNat := by
    rw [BitVec.toNat_setWidth]
    exact Nat.mod_eq_of_lt (by omega)
  have apart := Nat.two_pow_add_eq_or_of_lt ttlFits (label.toNat % 2 ^ 20 * 2 ^ 4 + 1)
  change ((new label).entry ||| (1 : BitVec 32) <<< 8 ||| ttl.toBitVec.setWidth 32).toNat = _
  rw [BitVec.toNat_or, labelled, low, ← apart]
  omega

theorem asBytes_eq (word : MplsLabelEntry) : ∃ b0 b1 b2 b3, word.asBytes = [b0, b1, b2, b3] ∧
      fromBytes [b0, b1, b2, b3] = some word := by
  have fits : word.entry.toNat < 256 ^ 4 := word.entry.isLt
  have readBack := ByteOrder.big.ofBytes_toBytes fits
  obtain ⟨b0, b1, b2, b3, bytes⟩ :=
    length_eq_four.mp (ByteOrder.big.toBytes_length 4 word.entry.toNat)
  rw [bytes] at readBack
  refine ⟨b0, b1, b2, b3, bytes, ?_⟩
  rw [fromBytes, readBack, BitVec.ofNat_toNat, BitVec.setWidth_eq]

@[simp]
theorem new_isBos : (new label).isBos = false := by
  rw [isBos_eq, new_toNat, Nat.testBit_eq_decide_div_mod_eq, decide_eq_false]
  omega

@[simp]
theorem bottom_isBos (ttl : UInt8) : (bottom label ttl).isBos = true := by
  have ttlFits := ttl.toNat_lt
  rw [isBos_eq, bottom_toNat, Nat.testBit_eq_decide_div_mod_eq, decide_eq_true]
  omega

theorem new_label : (new label).label.toNat = label.toNat % 2 ^ 20 := by
  rw [label_toNat, new_toNat]
  omega

theorem bottom_label (ttl : UInt8) : (bottom label ttl).label.toNat = label.toNat % 2 ^ 20 := by
  have ttlFits := ttl.toNat_lt
  rw [label_toNat, bottom_toNat]
  omega

end MplsLabelEntry

def stackBytes (ttl : UInt8) (labels : List (BitVec 32)) : List UInt8 :=
  (stackWords ttl labels).flatMap MplsLabelEntry.asBytes

variable (ttl : UInt8)

@[simp]
theorem stackWords_length (labels : List (BitVec 32)) :
    (stackWords ttl labels).length = labels.length := by
  fun_induction stackWords ttl labels with
  | case1 => rfl
  | case2 label => rfl
  | case3 label next rest ih =>
      rw [length_cons, ih]
      rfl

theorem stackBytes_length (labels : List (BitVec 32)) :
    (stackBytes ttl labels).length = 4 * labels.length := by
  rw [stackBytes, length_flatMap, ← stackWords_length ttl labels]
  induction stackWords ttl labels with
  | nil => rfl
  | cons word rest ih =>
      rw [map_cons, sum_cons, ih, length_cons, MplsLabelEntry.asBytes, ByteOrder.toBytes_length]
      omega

namespace KernelMpls

theorem words_flatMap (written : List MplsLabelEntry) :
    words (written.flatMap MplsLabelEntry.asBytes) = some written := by
  induction written with
  | nil => rfl
  | cons word rest ih =>
      obtain ⟨b0, b1, b2, b3, bytes, readBack⟩ := word.asBytes_eq
      rw [flatMap_cons, bytes, cons_append, cons_append, cons_append,
        cons_append, List.nil_append, words, readBack, ih]
      rfl

theorem labelOf_new (label : BitVec 32) : labelOf (.new label) = some (label.setWidth 20) := by
  have ttl : (MplsLabelEntry.new label).ttl = 0 := by
    apply BitVec.eq_of_toNat_eq
    rw [MplsLabelEntry.ttl_toNat, MplsLabelEntry.new_toNat]
    change _ = 0
    omega
  have tc : (MplsLabelEntry.new label).tc = 0 := by
    apply BitVec.eq_of_toNat_eq
    rw [MplsLabelEntry.tc_toNat, MplsLabelEntry.new_toNat]
    change _ = 0
    omega
  refine (if_pos ⟨ttl, tc⟩).trans (congrArg some ?_)
  apply BitVec.eq_of_toNat_eq
  rw [BitVec.toNat_setWidth, BitVec.toNat_setWidth, MplsLabelEntry.new_label, Nat.mod_mod]

theorem labelOf_bottom (label : BitVec 32) (ttl : UInt8) : labelOf (.bottom label ttl) =
      if ttl = 0 then some (label.setWidth 20) else none := by
  have ttlFits := ttl.toNat_lt
  have isTtl : (MplsLabelEntry.bottom label ttl).ttl = 0 ↔ ttl = 0 := by
    rw [← BitVec.toNat_inj, ← UInt8.toNat_inj, MplsLabelEntry.ttl_toNat,
      MplsLabelEntry.bottom_toNat]
    change _ = 0 ↔ _ = 0
    omega
  have tc : (MplsLabelEntry.bottom label ttl).tc = 0 := by
    apply BitVec.eq_of_toNat_eq
    rw [MplsLabelEntry.tc_toNat, MplsLabelEntry.bottom_toNat]
    change _ = 0
    omega
  have sameLabel : (MplsLabelEntry.bottom label ttl).label.setWidth 20 = label.setWidth 20 := by
    apply BitVec.eq_of_toNat_eq
    rw [BitVec.toNat_setWidth, BitVec.toNat_setWidth, MplsLabelEntry.bottom_label, Nat.mod_mod]
  rw [labelOf, sameLabel]
  by_cases noTtl : ttl = 0
  · rw [if_pos ⟨isTtl.mpr noTtl, tc⟩, if_pos noTtl]
  · rw [if_neg (fun both => noTtl (isTtl.mp both.1)), if_neg noTtl]

theorem labelsOf_stackWords (ttl : UInt8) (labels : List (BitVec 32)) :
    labelsOf (stackWords ttl labels) =
      if labels ≠ [] ∧ ttl = 0 then
        some (labels.map (BitVec.setWidth 20))
      else
        none := by
  fun_induction stackWords ttl labels with
  | case1 => rfl
  | case2 label =>
      rw [labelsOf, labelOf_bottom]
      by_cases noTtl : ttl = 0 <;> simp [noTtl]
  | case3 label next rest ih =>
      rw [labelsOf, labelOf_new, ih]
      by_cases noTtl : ttl = 0 <;> simp [noTtl]

theorem stack_stackBytes (ttl : UInt8) (labels : List (BitVec 32)) : stack (stackBytes ttl labels) =
      if labels ≠ [] ∧ ttl = 0 then
        some (labels.map (BitVec.setWidth 20))
      else
        none := by
  rw [stack, stackBytes, words_flatMap]
  exact labelsOf_stackWords ttl labels

theorem words_length {payload : List UInt8} {found : List MplsLabelEntry}
    (whole : words payload = some found) : payload.length = 4 * found.length := by
  fun_induction words payload generalizing found with
  | case1 =>
      cases whole
      rfl
  | case2 b0 b1 b2 b3 rest ih =>
      obtain ⟨word, _, whole⟩ := Option.bind_eq_some_iff.mp whole
      obtain ⟨later, isLater, whole⟩ := Option.bind_eq_some_iff.mp whole
      cases whole
      have count := ih isLater
      simp only [length_cons]
      omega
  | case3 => cases whole

theorem labelsOf_length {found : List MplsLabelEntry} {labels : List Label}
    (accepted : labelsOf found = some labels) : labels.length = found.length := by
  induction found generalizing labels with
  | nil => cases accepted
  | cons word rest ih =>
      obtain ⟨label, _, accepted⟩ := Option.bind_eq_some_iff.mp accepted
      cases bottom : word.isBos with
      | true =>
          rw [bottom, if_pos rfl] at accepted
          cases rest with
          | nil =>
              cases accepted
              rfl
          | cons next rest => cases accepted
      | false =>
          rw [bottom] at accepted
          obtain ⟨later, isLater, accepted⟩ := Option.bind_eq_some_iff.mp accepted
          cases accepted
          rw [length_cons, length_cons, ih isLater]

theorem stack_length {payload : List UInt8} {labels : List Label}
    (accepted : stack payload = some labels) : 4 * labels.length = payload.length := by
  obtain ⟨found, whole, isLabels⟩ := Option.bind_eq_some_iff.mp accepted
  rw [labelsOf_length isLabels, words_length whole]

theorem names_setWidth {asked : List (BitVec 32)} : Names (asked.map (BitVec.setWidth 20)) asked ↔
      ∀ label ∈ asked, label.toNat ≤ 0xFFFFF := by
  rw [Names, map_map, map_inj_left]
  refine forall₂_congr fun label _ => ?_
  rw [Function.comp_apply, BitVec.toNat_setWidth]
  omega

end KernelMpls

/-!
## Written routes and encapsulations as attributes

A route is a header and attributes behind it; the kernel and the parser read
the attributes that were written as long as each fits its length field.  A
stack that does not fit is cut off, so fewer labels are read than written.
-/

variable (order : ByteOrder)

/-- The attributes of a route's outgoing labels. -/
def newdstAttrs (outLabels : List (BitVec 32)) : List Attribute :=
  if outLabels.isEmpty then [] else [(RtaAttr.NEWDST, stackBytes 255 outLabels)]

/-- The output interface's attribute. -/
def oifAttrs (ifindex : Option (BitVec 32)) : List Attribute :=
  match ifindex with
  | some idx => [(RtaAttr.OIF, order.toBytes 4 idx.toNat)]
  | none => []

/-- The next hop's attribute. -/
def viaAttrs (via : Option IpAddr) : List Attribute :=
  match via with
  | some via => [(RtaAttr.VIA, MplsRouteBuilder.viaData order via)]
  | none => []

/-- The incoming label's attribute. -/
def dstAttr (label : BitVec 32) : Attribute :=
  (RtaAttr.DST, stackBytes 0 [label])

def routeAttrs (builder : MplsRouteBuilder) (ifindex : Option (BitVec 32)) : List Attribute :=
  [dstAttr builder.label] ++ newdstAttrs builder.outLabels ++
    oifAttrs order ifindex ++ viaAttrs order builder.via

theorem stackBytes_singleton (label : BitVec 32) :
    stackBytes ttl [label] = (MplsLabelEntry.bottom label ttl).asBytes :=
  List.append_nil _

/-- A route's body is appended. -/
theorem appends_writeTo (builder : MplsRouteBuilder) (ifindex : Option (BitVec 32)) :
    Appends (fun msg => builder.writeTo order msg ifindex)
      (MplsRouteBuilder.rtmsg.asBytes order ++
        encodeAll order (routeAttrs order builder ifindex)) := by
  have header : Appends (fun msg =>
        msg.appendBytes (MplsRouteBuilder.rtmsg.asBytes order)) _ :=
    appends_header (by rw [RtMsg.asBytes_length]; decide)
  have dst := appends_one order RtaAttr.DST (MplsLabelEntry.bottom builder.label 0).asBytes
  rw [← stackBytes_singleton] at dst
  have newdst : Appends (fun msg : MessageBuilder =>
        if builder.outLabels.isEmpty then
          msg
        else
          msg.appendAttr order RtaAttr.NEWDST
            ((stackWords 255 builder.outLabels).flatMap MplsLabelEntry.asBytes))
      (encodeAll order (newdstAttrs builder.outLabels)) := by
    cases builder.outLabels with
    | nil => exact Appends.id
    | cons label rest => exact appends_one order _ _
  have oif : Appends (fun msg : MessageBuilder =>
        match ifindex with
        | some idx => msg.appendAttrU32 order RtaAttr.OIF idx.toNat
        | none => msg)
      (encodeAll order (oifAttrs order ifindex)) := by
    cases ifindex with
    | none => exact Appends.id
    | some idx => exact appends_one order _ _
  have via : Appends (fun msg : MessageBuilder =>
        match builder.via with
        | some via => msg.appendAttr order RtaAttr.VIA (MplsRouteBuilder.viaData order via)
        | none => msg)
      (encodeAll order (viaAttrs order builder.via)) := by
    cases builder.via with
    | none => exact Appends.id
    | some via => exact appends_one order _ _
  exact header.comp
    (Appends.compAll order (Appends.compAll order (Appends.compAll order dst newdst) oif) via)

theorem appends_delMplsRoute (label : BitVec 32) : Appends (delMplsRoute order label)
      (delRtmsg.asBytes order ++ encodeAll order [dstAttr label]) := by
  have header : Appends (fun msg => msg.appendBytes (delRtmsg.asBytes order)) _ :=
    appends_header (by rw [RtMsg.asBytes_length]; decide)
  have dst := appends_one order RtaAttr.DST (MplsLabelEntry.bottom label 0).asBytes
  rw [← stackBytes_singleton] at dst
  exact header.comp dst

theorem attrIter_routeAttrs {builder : MplsRouteBuilder} (ifindex : Option (BitVec 32))
    (short : builder.outLabels.length ≤ 16382) :
    attrIter order (encodeAll order (routeAttrs order builder ifindex)) =
      routeAttrs order builder ifindex := by
  have one (attr : Nat) (payload : List UInt8)
      (plain : attr < NLA_F_NET_BYTEORDER) (fits : payload.length ≤ 65531) :
      ∀ found ∈ [((attr, payload) : Attribute)], found.1 < NLA_F_NET_BYTEORDER ∧
          NLA_HDRLEN + found.2.length ≤ 65535 := by
    intro found member
    cases mem_singleton.mp member
    refine ⟨plain, ?_⟩
    change 4 + payload.length ≤ 65535
    omega
  have all : ∀ attr ∈ routeAttrs order builder ifindex, attr.1 < NLA_F_NET_BYTEORDER ∧
        NLA_HDRLEN + attr.2.length ≤ 65535 := by
    rw [routeAttrs]
    refine forall_mem_append.mpr ⟨forall_mem_append.mpr ⟨forall_mem_append.mpr ⟨?_, ?_⟩, ?_⟩, ?_⟩
    · refine one _ _ (by decide) ?_
      rw [stackBytes_length, length_singleton]
      decide
    · rw [newdstAttrs]
      split
      · exact forall_mem_nil _
      · refine one _ _ (by decide) ?_
        rw [stackBytes_length]
        omega
    · cases ifindex with
      | none => exact forall_mem_nil _
      | some idx => exact one _ _ (by decide) (by simp)
    · cases builder.via with
      | none => exact forall_mem_nil _
      | some via =>
          refine one _ _ (by decide) ?_
          cases via <;> simp [MplsRouteBuilder.viaData]
  exact attrIter_encodeAll_plain order (fun attr member => (all attr member).1)
    fun attr member => (all attr member).2

/-!
## Encapsulations of labels

The builder clamps labels, and writes a time to live of 255 unless another one
is asked for.  The kernel takes a stack without a time to live only.
-/

variable (order : ByteOrder)

namespace MplsEncap

def asked (calls : List Call) : List (BitVec 32) :=
  calls.flatMap fun
    | .label label => [label]
    | .labels labels => labels
    | .ttl _ => []

/-- The time to live that calls ask for. -/
def askedTtl (calls : List Call) : Option UInt8 :=
  calls.foldl
    (fun found call =>
      match call with
      | .ttl ttl => some ttl
      | _ => found) none

theorem build_labels (calls : List Call) :
    (build calls).labels = (asked calls).map MplsLabel.newClamped := by
  induction calls using List.reverseRecOn with
  | nil => rfl
  | append_singleton calls last ih =>
      rw [asked, flatMap_append, ← asked, map_append, ← ih, build, foldl_concat, ← build]
      cases last <;> simp [call]

theorem build_ttl (calls : List Call) : (build calls).ttl = askedTtl calls := by
  induction calls using List.reverseRecOn with
  | nil => rfl
  | append_singleton calls last ih =>
      rw [askedTtl, foldl_concat, ← askedTtl, ← ih, build, foldl_concat, ← build]
      cases last <;> rfl

def pushed (encap : MplsEncap) : List (BitVec 32) :=
  encap.labels.map MplsLabel.val

/-- The attributes inside the encapsulation. -/
def innerAttrs (encap : MplsEncap) : List Attribute :=
  (mplsTunnel.DST, stackBytes (encap.ttl.getD 255) encap.pushed) ::
    match encap.ttl with
    | some ttl => [(mplsTunnel.TTL, [ttl])]
    | none => []

/-- The attributes of an encapsulation that has labels. -/
def encapAttrs (encap : MplsEncap) : List Attribute :=
  [(RtaAttr.ENCAP_TYPE, order.toBytes 2 lwtunnelEncap.MPLS)] ++
    [(RtaAttr.ENCAP ||| NLA_F_NESTED, encodeAll order (encap.innerAttrs))]

variable {encap : MplsEncap}

/-- An encapsulation with labels appends its attributes. -/
theorem appends_writeTo (labelled : encap.labels ≠ []) : Appends (encap.writeTo order)
      (encodeAll order (encap.encapAttrs order)) := by
  have encapType := appends_one order RtaAttr.ENCAP_TYPE (order.toBytes 2 lwtunnelEncap.MPLS)
  have dst := appends_one order mplsTunnel.DST encap.encodeLabels
  have ttl : Appends (fun msg : MessageBuilder =>
        match encap.ttl with
        | some ttl => msg.appendAttrU8 order mplsTunnel.TTL ttl.toNat
        | none => msg)
      (encodeAll order (match encap.ttl with
        | some ttl => [(mplsTunnel.TTL, [ttl])]
        | none => [])) := by
    cases encap.ttl with
    | none => exact Appends.id
    | some ttl => simpa [MessageBuilder.appendAttrU8] using appends_one order mplsTunnel.TTL [ttl]
  have inner := appends_nestAll order RtaAttr.ENCAP (Appends.compAll order dst ttl)
  have whole := Appends.compAll order encapType inner
  have isWritten : encap.writeTo order = fun msg =>
      (msg.appendAttrU16 order RtaAttr.ENCAP_TYPE lwtunnelEncap.MPLS).nest
        order RtaAttr.ENCAP fun msg =>
          match encap.ttl with
          | some ttl =>
              (msg.appendAttr order mplsTunnel.DST
                encap.encodeLabels).appendAttrU8 order mplsTunnel.TTL ttl.toNat
          | none => msg.appendAttr order mplsTunnel.DST encap.encodeLabels := by
    funext msg
    exact if_neg (by simpa using labelled)
  rw [isWritten]
  exact whole

theorem innerAttrs_dst (encap : MplsEncap) : lastOf (encap.innerAttrs) mplsTunnel.DST =
      some (stackBytes (encap.ttl.getD 255) encap.pushed) := by
  rw [innerAttrs]
  cases encap.ttl <;> rfl

theorem innerAttrs_fit (short : encap.pushed.length ≤ 16382) : ∀ attr ∈ encap.innerAttrs,
      attr.1 < NLA_F_NET_BYTEORDER ∧ NLA_HDRLEN + attr.2.length ≤ 65535 := by
  have stackFits : NLA_HDRLEN + (stackBytes (encap.ttl.getD 255) encap.pushed).length ≤
        65535 := by
    rw [stackBytes_length, NLA_HDRLEN]
    omega
  have dst : mplsTunnel.DST < NLA_F_NET_BYTEORDER := by decide
  have ttlType : mplsTunnel.TTL < NLA_F_NET_BYTEORDER := by decide
  refine forall_mem_cons.mpr ⟨⟨dst, stackFits⟩, ?_⟩
  cases encap.ttl with
  | none => exact forall_mem_nil _
  | some ttl =>
      intro attr member
      cases mem_singleton.mp member
      exact ⟨ttlType, show 5 ≤ 65535 by decide⟩

theorem innerAttrs_length (encap : MplsEncap) : (encodeAll order (encap.innerAttrs)).length =
      4 + 4 * encap.pushed.length +
        match encap.ttl with
        | some _ => 8
        | none => 0 := by
  rw [innerAttrs, encodeAll, flatMap_cons, length_append,
    attrBytes_length, stackBytes_length]
  have aligned : nlaAlign (4 * encap.pushed.length + 4) = 4 + 4 * encap.pushed.length := by
    rw [nlaAlign_of_dvd ⟨encap.pushed.length + 1, by omega⟩]
    omega
  rw [aligned]
  cases encap.ttl with
  | none => rfl
  | some ttl =>
      rw [flatMap_singleton, attrBytes_length]
      exact congrArg (4 + 4 * encap.pushed.length + ·) (show nlaAlign 5 = 8 by decide)

theorem decodeEncap_of_fits (fits : (encodeAll order (encap.innerAttrs)).length ≤ 65531) :
    KernelMpls.decodeEncap order (attrIter order (encodeAll order (encap.encapAttrs order))) =
      KernelMpls.stack (stackBytes (encap.ttl.getD 255) encap.pushed) := by
  have few : encap.pushed.length ≤ 16382 := by
    rw [innerAttrs_length] at fits
    omega
  have innerFit := innerAttrs_fit few
  have encapType : RtaAttr.ENCAP_TYPE < 256 ^ 2 := by decide
  have nestType : RtaAttr.ENCAP ||| NLA_F_NESTED < 256 ^ 2 := by decide
  have outerFit : ∀ attr ∈ encap.encapAttrs order, attr.Fits := by
    refine forall_mem_append.mpr ⟨?_, ?_⟩
    · intro attr member
      cases mem_singleton.mp member
      refine ⟨encapType, ?_⟩
      rw [ByteOrder.toBytes_length]
      decide
    · intro attr member
      cases mem_singleton.mp member
      exact ⟨nestType, Nat.add_le_of_le_sub' (by decide) fits⟩
  have outer : (encap.encapAttrs order).map Attribute.masked =
        [(RtaAttr.ENCAP_TYPE, order.toBytes 2 lwtunnelEncap.MPLS),
          (RtaAttr.ENCAP, encodeAll order (encap.innerAttrs))] := by
    rw [encapAttrs, map_append, map_singleton, map_singleton, Attribute.masked_of_lt
      (show RtaAttr.ENCAP_TYPE < _ by decide), Attribute.masked_nested (by decide)]
    rfl
  have inner := attrIter_encodeAll_plain order (fun attr member => (innerFit attr member).1)
    fun attr member => (innerFit attr member).2
  rw [attrIter_encodeAll order outerFit, outer, KernelMpls.decodeEncap]
  have isMpls : (order.toBytes 2 lwtunnelEncap.MPLS).take 2 = order.toBytes 2 lwtunnelEncap.MPLS :=
    take_of_length_le (Nat.le_of_eq (ByteOrder.toBytes_length ..))
  refine (if_pos isMpls).trans ?_
  rw [inner, innerAttrs_dst]
  rfl

theorem attrIter_four {byte : UInt8} {attr : Attribute}
    (member : attr ∈ attrIter order [byte, 0, 0, 0]) : attr.1 = 0 := by
  cases next : nextAttr order [byte, 0, 0, 0] with
  | none =>
      rw [attrIter_of_none next] at member
      cases member
  | some step =>
      obtain ⟨first, rest⟩ := step
      have length := (nextAttr_payload_le order next).2
      have shape := next
      rw [nextAttr] at shape
      change (if _ then none else _) = _ at shape
      split at shape
      · cases shape
      · rename_i lengths
        obtain ⟨longEnough, _⟩ := not_or.mp lengths
        cases shape
        have aligned := le_nlaAlign (order.ofBytes [byte, 0])
        have isLong : 4 ≤ order.ofBytes [byte, 0] := Nat.le_of_not_lt longEnough
        have ended : [byte, 0, 0, 0].drop (nlaAlign (order.ofBytes [byte, 0])) = [] :=
          drop_of_length_le (Nat.le_trans isLong aligned)
        rw [attrIter_of_next next, mem_cons] at member
        obtain rfl | later := member
        · cases order <;> rfl
        · rw [ended, attrIter_of_none rfl] at later
          cases later

/-- What is behind a cut encapsulation says nothing about one. -/
theorem attrIter_behind_cut {ttl : UInt8} (isTtl : encap.ttl = some ttl)
    (atMost : encap.pushed.length ≤ 16381) (atLeast : 16380 ≤ encap.pushed.length) :
    ∀ attr ∈ attrIter order ((encodeAll order encap.innerAttrs).drop 65532), attr.1 = 0 := by
  have stackLength : (stackBytes (encap.ttl.getD 255) encap.pushed).length =
      4 * encap.pushed.length :=
    stackBytes_length ..
  have dstLength :
      (attrBytes order mplsTunnel.DST
        (stackBytes (encap.ttl.getD 255) encap.pushed)).length =
        4 + 4 * encap.pushed.length := by
    rw [attrBytes_length, stackLength,
      nlaAlign_of_dvd ⟨encap.pushed.length + 1, by omega⟩]
    omega
  have inner : encodeAll order encap.innerAttrs = attrBytes order mplsTunnel.DST
            (stackBytes (encap.ttl.getD 255) encap.pushed) ++
          attrBytes order mplsTunnel.TTL [ttl] := by
    rw [innerAttrs, isTtl, encodeAll, flatMap_cons, flatMap_singleton]
  obtain isLess | isMost : encap.pushed.length = 16380 ∨ encap.pushed.length = 16381 := by omega
  · have ended : (encodeAll order encap.innerAttrs).drop 65532 = [] := by
      apply drop_of_length_le
      rw [innerAttrs_length, isTtl, isLess]
      exact Nat.le_refl 65532
    rw [ended, attrIter_of_none rfl]
    exact forall_mem_nil _
  · have left : (encodeAll order encap.innerAttrs).drop 65532 = [ttl, 0, 0, 0] := by
      have start : 65532 =
          (attrBytes order mplsTunnel.DST
            (stackBytes (encap.ttl.getD 255) encap.pushed)).length + 4 := by
        rw [dstLength, isMost]
      have header :
          (order.toBytes 2 (min (4 + [ttl].length) 65535) ++
            order.toBytes 2 mplsTunnel.TTL).length = 4 := by
        rw [length_append, ByteOrder.toBytes_length, ByteOrder.toBytes_length]
      rw [inner, start, drop_length_add_append, attrBytes,
        ← List.append_assoc, drop_left' header]
      have padded : padding (4 + [ttl].length) = [0, 0, 0] := show padding 5 = _ by decide
      rw [padded]
      rfl
    rw [left]
    exact fun attr member => attrIter_four order member

theorem innerAttrs_cut (atMost : encap.pushed.length ≤ 16381) :
    lastOf (attrIter order ((encodeAll order encap.innerAttrs).take 65531)) mplsTunnel.DST =
      some (stackBytes (encap.ttl.getD 255) encap.pushed) := by
  have innerFit := innerAttrs_fit (Nat.le_trans atMost (by decide : 16381 ≤ 16382))
  have fit : ∀ attr ∈ encap.innerAttrs, attr.Fits := fun attr member =>
    ⟨Nat.lt_trans (innerFit attr member).1 (by decide), (innerFit attr member).2⟩
  have plain : encap.innerAttrs.map Attribute.masked = encap.innerAttrs :=
    (map_congr_left fun attr member =>
      Attribute.masked_of_lt (innerFit attr member).1).trans (map_id _)
  have early := attrIter_take order fit 65531
  rw [plain] at early
  obtain ⟨dstFits, restFit⟩ := forall_mem_cons.mp fit
  have next := nextAttr_take order (nextAttr_attrBytes order
      (encodeAll order encap.innerAttrs.tail) dstFits.1 dstFits.2) 65531
  have inside : NLA_HDRLEN + (stackBytes (encap.ttl.getD 255) encap.pushed).length ≤
        65531 := by
    rw [stackBytes_length, NLA_HDRLEN]
    omega
  rw [if_pos inside] at next
  have isFirst := attrIter_of_next next
  change attrIter order ((encodeAll order encap.innerAttrs).take 65531) = _ at isFirst
  rw [isFirst] at early ⊢
  obtain ⟨isDst, later⟩ := cons_prefix_cons.mp early
  have others : ∀ attr ∈ encap.innerAttrs.tail, attr.1 ≠ mplsTunnel.DST := by
    rw [innerAttrs]
    cases encap.ttl with
    | none => exact forall_mem_nil _
    | some ttl => exact forall_mem_singleton.mpr (show 2 ≠ 1 by decide)
  rw [← singleton_append]
  exact lastOf_append_of_ne fun attr member => others attr (later.subset member)

/-- An encapsulation is read as it was written unless its stack is cut. -/
theorem decodeEncap_encapAttrs (atMost : encap.pushed.length ≤ 16381) : KernelMpls.decodeEncap order
        (attrIter order (encodeAll order (encap.encapAttrs order))) =
      KernelMpls.stack (stackBytes (encap.ttl.getD 255) encap.pushed) := by
  by_cases fits : (encodeAll order encap.innerAttrs).length ≤ 65531
  · exact decodeEncap_of_fits order fits
  · have long := innerAttrs_length order encap
    obtain ⟨ttl, isTtl, atLeast⟩ : ∃ ttl, encap.ttl = some ttl ∧ 16380 ≤ encap.pushed.length := by
      cases isTtl : encap.ttl with
      | none =>
          rw [isTtl] at long
          change _ = 4 + 4 * encap.pushed.length + 0 at long
          omega
      | some ttl =>
          rw [isTtl] at long
          change _ = 4 + 4 * encap.pushed.length + 8 at long
          exact ⟨ttl, rfl, by omega⟩
    rw [isTtl] at long
    change _ = 4 + 4 * encap.pushed.length + 8 at long
    have behind := attrIter_behind_cut order isTtl atMost atLeast
    have nested := nextAttr_long order (show RtaAttr.ENCAP ||| NLA_F_NESTED < 256 ^ 2 by decide)
      (show 4 ∣ (encodeAll order encap.innerAttrs).length by
        rw [long]
        exact ⟨encap.pushed.length + 3, by omega⟩)
      (by rw [NLA_HDRLEN]; omega)
    rw [nested_kind (show RtaAttr.ENCAP < _ by decide)] at nested
    have typed := nextAttr_attrBytes order
      (attrBytes order (RtaAttr.ENCAP ||| NLA_F_NESTED)
        (encodeAll order encap.innerAttrs))
      (show RtaAttr.ENCAP_TYPE < 256 ^ 2 by decide)
      (show NLA_HDRLEN + (order.toBytes 2 lwtunnelEncap.MPLS).length ≤ 65535 by
        rw [ByteOrder.toBytes_length]
        decide)
    have walk : attrIter order (encodeAll order (encap.encapAttrs order)) =
          [(RtaAttr.ENCAP_TYPE, order.toBytes 2 lwtunnelEncap.MPLS),
              (RtaAttr.ENCAP, (encodeAll order encap.innerAttrs).take 65531)] ++
            attrIter order ((encodeAll order encap.innerAttrs).drop 65532) := by
      rw [encapAttrs, encodeAll, flatMap_append, flatMap_singleton,
        flatMap_singleton, attrIter_of_next typed, attrIter_of_next nested]
      rfl
    rw [walk, KernelMpls.decodeEncap, lastOf_append_of_ne fun attr member => by
        rw [behind attr member]
        decide,
      lastOf_append_of_ne fun attr member => by
        rw [behind attr member]
        decide]
    have isMpls : (order.toBytes 2 lwtunnelEncap.MPLS).take 2 =
          order.toBytes 2 lwtunnelEncap.MPLS :=
      take_of_length_le (Nat.le_of_eq (ByteOrder.toBytes_length ..))
    refine (if_pos isMpls).trans ?_
    rw [innerAttrs_cut order atMost]
    rfl

theorem decodeEncap_length {data : List UInt8} {labels : List KernelMpls.Label}
    (decoded : KernelMpls.decodeEncap order (attrIter order data) = some labels) :
    labels.length ≤ 16381 := by
  rw [KernelMpls.decodeEncap] at decoded
  cases isType : lastOf (attrIter order data) RtaAttr.ENCAP_TYPE with
  | none =>
      rw [isType] at decoded
      cases isEncap : lastOf (attrIter order data) RtaAttr.ENCAP with
      | none =>
          rw [isEncap] at decoded
          cases decoded
          exact Nat.zero_le _
      | some encap =>
          rw [isEncap] at decoded
          cases decoded
  | some encapType =>
      rw [isType] at decoded
      cases isEncap : lastOf (attrIter order data) RtaAttr.ENCAP with
      | none =>
          rw [isEncap] at decoded
          cases decoded
      | some encap =>
          rw [isEncap] at decoded
          change (if _ then _ else none) = _ at decoded
          split at decoded
          · obtain ⟨payload, isDst, accepted⟩ := Option.bind_eq_some_iff.mp decoded
            have outer := (attrIter_payload_le order (mem_of_lastOf isEncap)).1
            have inner := (attrIter_payload_le order (mem_of_lastOf isDst)).2
            have count := KernelMpls.stack_length accepted
            rw [NLA_HDRLEN] at outer inner
            dsimp only at outer inner
            omega
          · cases decoded

end MplsEncap

end Nlink.Mpls
