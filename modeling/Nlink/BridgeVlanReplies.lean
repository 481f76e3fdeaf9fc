import Nlink.BridgeVlan

namespace Nlink.BridgeVlan

open Foundation Netlink Nftables List Attrs

/-!
# Links and the messages about them

The kernel describes a link by a fixed header and attributes.  The VLANs stand
in one attribute and the master in another; what else a message has is the
kernel's choice.
-/

/-- A bridge, or a port. -/
structure Link where
  index : Nat
  linkType : Nat
  flags : Nat
  master : Option Nat
  vlans : VlanTable
  indexFits : index < 256 ^ 4
  typeFits : linkType < 256 ^ 2
  flagsFit : flags < 256 ^ 4

namespace Link

/-- The fixed header of a message about the link. -/
def ifInfoMsg (link : Link) (family : Nat) : IfInfoMsg where
  ifiFamily := UInt8.ofNat family
  ifiType := link.linkType
  ifiIndex := link.index
  ifiFlags := link.flags
  ifiChange := 0

/-- The link's VLANs as they should be read back. -/
def entries (link : Link) : List BridgeVlanEntry :=
  link.vlans.entries link.index

/-- The bridge device itself and its ports. -/
def ofBridge (bridge : Nat) (link : Link) : Bool :=
  link.index = bridge || link.master = some bridge

end Link

/-- Attributes without one of a given kind. -/
structure OtherAttrs (order : ByteOrder) (kind : Nat) where
  attrs : Attrs
  fits : attrs.Fits order
  absent : kind ∉ attrs.kinds

/-- A message with a link's VLANs: their attribute stands somewhere among
others. -/
structure IsVlanReply (order : ByteOrder) (link : Link) (frame : Frame) : Prop where
  isLink : frame.header.nlmsgType = RTM_NEWLINK
  consistent : frame.header.isDumpInterrupted = false
  content : ∃ before after : OtherAttrs order IflaAttr.AfSpec, frame.payload =
      (link.ifInfoMsg AF_BRIDGE).asBytes order ++
        (before.attrs ++ Attrs.leaf IflaAttr.AfSpec
            ((infoAttrs order link.vlans.infos).encode order)
            after.attrs).encode order

/-- The attribute that names a link's master. -/
def masterAttr (order : ByteOrder) : Option Nat → Attrs
  | none => .nil
  | some master => .leaf IflaAttr.Master (order.toBytes 4 master) .nil

/-- A message with a link's master. -/
structure IsLinkReply (order : ByteOrder) (link : Link) (frame : Frame) : Prop where
  isLink : frame.header.nlmsgType = RTM_NEWLINK
  consistent : frame.header.isDumpInterrupted = false
  content : ∃ before after : OtherAttrs order IflaAttr.Master, frame.payload =
      (link.ifInfoMsg 0).asBytes order ++
        (before.attrs ++ masterAttr order link.master ++ after.attrs).encode order

variable {order : ByteOrder}

variable (link : Link)

theorem ifInfoMsg_length (family : Nat) :
    ((link.ifInfoMsg family).asBytes order).length = IfInfoMsg.SIZE := by
  simp [IfInfoMsg.asBytes, IfInfoMsg.SIZE]

theorem fromBytes_ifInfoMsg (link : Link) (family : Nat) (rest : List UInt8) : ∃ ifinfo,
      IfInfoMsg.fromBytes order ((link.ifInfoMsg family).asBytes order ++ rest) = .ok ifinfo ∧
        ifinfo.ifiIndex = link.index := by
  have long : ¬ ((link.ifInfoMsg family).asBytes order ++ rest).length <
        IfInfoMsg.SIZE := by
    rw [length_append, ifInfoMsg_length]
    omega
  refine ⟨_, (if_neg long : _), ?_⟩
  obtain ⟨t0, t1, typeBytes⟩ := length_eq_two.mp (order.toBytes_length 2 link.linkType)
  have index : ((((link.ifInfoMsg family).asBytes order ++ rest).drop 4).take 4) =
        order.toBytes 4 link.index := by
    simp only [IfInfoMsg.asBytes, Link.ifInfoMsg, typeBytes, cons_append, List.nil_append,
      drop_succ_cons, drop_zero, List.append_assoc]
    exact take_left' (order.toBytes_length 4 _)
  simp only [index]
  exact order.ofBytes_toBytes link.indexFits

theorem vlansOf_level_other (ifindex : Nat) {attrs : Attrs}
    (absent : IflaAttr.AfSpec ∉ attrs.kinds) : vlansOf order ifindex (attrs.level order) = [] := by
  induction attrs with
  | nil => rfl
  | leaf attrType payload rest ih | nest attrType inner rest _ ih =>
      obtain ⟨other, later⟩ := not_or.mp (mt mem_cons.mpr absent)
      rw [level, vlansOf_cons, if_neg (Ne.symm other), ih later, List.nil_append]

theorem level_append (attrs others : Attrs) :
    (attrs ++ others).level order = attrs.level order ++ others.level order := by
  induction attrs with
  | nil => rfl
  | leaf attrType payload rest ih => exact congrArg (List.cons _) ih
  | nest attrType inner rest _ ih => exact congrArg (List.cons _) ih

theorem fits_append {attrs others : Attrs} (fits : attrs.Fits order)
    (othersFit : others.Fits order) : (attrs ++ others).Fits order := by
  induction attrs with
  | nil => exact othersFit
  | leaf attrType payload rest ih => exact ⟨fits.1, fits.2.1, ih fits.2.2⟩
  | nest attrType inner rest _ ih => exact ⟨fits.1, fits.2.1, fits.2.2.1, ih fits.2.2.2⟩

theorem afSpec_fits (after : OtherAttrs order IflaAttr.AfSpec) :
    (Attrs.leaf IflaAttr.AfSpec ((infoAttrs order link.vlans.infos).encode order)
      after.attrs).Fits order := by
  have few := link.vlans.infos_length_le
  refine ⟨by decide, ?_, after.fits⟩
  rw [infoAttrs_length, NLA_HDRLEN]
  omega

theorem vlansOf_reply (before after : OtherAttrs order IflaAttr.AfSpec) :
    vlansOf order link.index
        (attrIter order ((before.attrs ++ Attrs.leaf IflaAttr.AfSpec
              ((infoAttrs order link.vlans.infos).encode order)
              after.attrs).encode order)) =
      link.entries := by
  have beforeVlans : vlansOf order link.index (before.attrs.level order) = [] :=
    vlansOf_level_other link.index before.absent
  have afterVlans : vlansOf order link.index (after.attrs.level order) = [] :=
    vlansOf_level_other link.index after.absent
  rw [attrIter_encode order (fits_append before.fits (afSpec_fits link after)),
    level_append, vlansOf_append, beforeVlans, level, vlansOf_cons,
    if_pos rfl, afterVlans, parseAfSpecVlans_infos, List.append_nil]
  rfl

theorem parseVlanEntriesFromDump_reply {link : Link} {frame : Frame}
    (isReply : IsVlanReply order link frame) :
    parseVlanEntriesFromDump order (frame.messageBytes order) = .ok link.entries := by
  obtain ⟨before, after, content⟩ := isReply.content
  obtain ⟨ifinfo, read, isIndex⟩ :=
    @fromBytes_ifInfoMsg order link AF_BRIDGE
      ((before.attrs ++ Attrs.leaf IflaAttr.AfSpec ((infoAttrs order link.vlans.infos).encode order)
          after.attrs).encode order)
  have long : ¬ frame.payload.length < IfInfoMsg.SIZE := by
    rw [content, length_append, ifInfoMsg_length]
    omega
  have vlans := vlansOf_reply link before after
  rw [parseVlanEntriesFromDump, frame.messageIter_messageBytes, flatMap_singleton, Frame.message,
    messageVlans, if_neg long, content, read]
  simp only
  rw [isIndex, drop_left' (ifInfoMsg_length link AF_BRIDGE), vlans]

/-!
## A reply read sixteen bytes early

`send_request` returns the message with its header, and `parse_vlan_entries`
takes the bytes for a payload.  So the walk over the attributes starts at the
link's fixed header.  On a little-endian host the family is read as the length
of an attribute of seven bytes and the device flags as the length of the next,
which decides where the walk goes on.
-/

/-- The length that the walk reads off the device flags. -/
def Link.flagsLength (link : Link) : Nat :=
  link.flags % 65536

variable (order : ByteOrder)

theorem nextAttr_cons (l0 l1 t0 t1 : UInt8) (body : List UInt8) :
    nextAttr order (l0 :: l1 :: t0 :: t1 :: body) =
      if order.ofBytes [l0, l1] < 4 ∨ body.length + 4 < order.ofBytes [l0, l1] then
        none
      else
        some
          ((order.ofBytes [t0, t1] % NLA_F_NET_BYTEORDER, body.take (order.ofBytes [l0, l1] - 4)),
            (l0 :: l1 :: t0 :: t1 :: body).drop (nlaAlign (order.ofBytes [l0, l1]))) := by
  rw [nextAttr, NlAttr.fromBytes]
  change (if _ then none else _) = _
  simp only [NLA_HDRLEN, length_cons, Nat.add_assoc]
  split
  · rfl
  · rename_i lengths
    obtain ⟨longEnough, _⟩ := not_or.mp lengths
    rw [drop_take]
    rfl

theorem parseAfSpecVlans_zeros (ifindex count : Nat) (rest : List UInt8) :
    parseAfSpecVlans order ((0 :: 0 :: 0 :: 0 :: rest).take count) ifindex = [] := by
  have stops : attrIter order ((0 :: 0 :: 0 :: 0 :: rest).take count) = [] := by
    apply attrIter_of_none
    rcases count with _ | _ | _ | _ | count
    · rfl
    · rfl
    · rfl
    · rfl
    · simp only [take_succ_cons]
      rw [nextAttr_cons, if_pos (Or.inl _)]
      cases order <;> decide
  rw [parseAfSpecVlans, stops]
  rfl

theorem asBytes_little (link : Link) : ∃ t0 t1 i0 i1 i2 i3 f0 f1 f2 f3,
      (link.ifInfoMsg AF_BRIDGE).asBytes .little =
          [7, 0, t0, t1, i0, i1, i2, i3, f0, f1, f2, f3, 0, 0, 0, 0] ∧
        ByteOrder.little.ofBytes [f0, f1] = link.flagsLength := by
  obtain ⟨t0, t1, typeBytes⟩ := length_eq_two.mp (ByteOrder.little.toBytes_length 2 link.linkType)
  refine ⟨t0, t1, UInt8.ofNat link.index, UInt8.ofNat (link.index / 256),
      UInt8.ofNat (link.index / 256 / 256),
      UInt8.ofNat (link.index / 256 / 256 / 256), UInt8.ofNat link.flags,
      UInt8.ofNat (link.flags / 256), UInt8.ofNat (link.flags / 256 / 256),
      UInt8.ofNat (link.flags / 256 / 256 / 256), ?_, ?_⟩
  · simp only [IfInfoMsg.asBytes, Link.ifInfoMsg, typeBytes]
    rfl
  · simp [ByteOrder.ofBytes, fromLittleEndian, Link.flagsLength]
    omega

theorem vlansOf_header_little (link : Link) (ifindex : Nat) (rest : List UInt8) : ∃ f0 f1 f2 f3,
      ByteOrder.little.ofBytes [f0, f1] = link.flagsLength ∧ vlansOf .little ifindex
            (attrIter .little ((link.ifInfoMsg AF_BRIDGE).asBytes .little ++ rest)) =
          vlansOf .little ifindex
            (attrIter .little (f0 :: f1 :: f2 :: f3 :: 0 :: 0 :: 0 :: 0 :: rest)) := by
  obtain ⟨t0, t1, i0, i1, i2, i3, f0, f1, f2, f3, bytes, isLength⟩ := asBytes_little link
  refine ⟨f0, f1, f2, f3, isLength, ?_⟩
  have familyLength : ByteOrder.little.ofBytes [7, 0] = 7 := rfl
  have next : nextAttr .little ((link.ifInfoMsg AF_BRIDGE).asBytes .little ++ rest) = some
          ((ByteOrder.little.ofBytes [t0, t1] % NLA_F_NET_BYTEORDER, [i0, i1, i2]),
            f0 :: f1 :: f2 :: f3 :: 0 :: 0 :: 0 :: 0 :: rest) := by
    simp only [bytes, cons_append, List.nil_append]
    rw [nextAttr_cons, familyLength, if_neg (by simp)]
    rfl
  have tooShort : parseAfSpecVlans .little [i0, i1, i2] ifindex = [] := by rfl
  rw [attrIter_of_next next, vlansOf_cons, tooShort, ite_self, List.nil_append]

variable {link : Link}

theorem vlansOf_stops (ifindex : Nat) (rest : List UInt8)
    (stops : link.flagsLength ≤ 4 ∨ rest.length + 8 < link.flagsLength) :
    vlansOf .little ifindex
        (attrIter .little ((link.ifInfoMsg AF_BRIDGE).asBytes .little ++ rest)) =
      [] := by
  obtain ⟨f0, f1, f2, f3, isLength, skipped⟩ := vlansOf_header_little link ifindex rest
  rw [skipped]
  by_cases four : link.flagsLength = 4
  · have next : nextAttr .little (f0 :: f1 :: f2 :: f3 :: 0 :: 0 :: 0 :: 0 :: rest) = some
            ((ByteOrder.little.ofBytes [f2, f3] % NLA_F_NET_BYTEORDER, []),
              0 :: 0 :: 0 :: 0 :: rest) := by
      rw [nextAttr_cons, isLength, four, if_neg (by simp)]
      rfl
    have ends : nextAttr .little (0 :: 0 :: 0 :: 0 :: rest) = none := by
      rw [nextAttr_cons, if_pos (Or.inl (by decide))]
    have nothing : parseAfSpecVlans .little [] ifindex = [] := rfl
    rw [attrIter_of_next next, attrIter_of_none ends, vlansOf_cons, nothing, ite_self]
    rfl
  · have ends : nextAttr .little (f0 :: f1 :: f2 :: f3 :: 0 :: 0 :: 0 :: 0 :: rest) =
          none := by
      rw [nextAttr_cons, isLength, if_pos]
      simp only [length_cons]
      omega
    rw [attrIter_of_none ends]
    rfl

theorem vlansOf_goesOn (ifindex : Nat) (rest : List UInt8) (longEnough : 5 ≤ link.flagsLength)
    (inside : link.flagsLength ≤ rest.length + 8) :
    vlansOf .little ifindex
        (attrIter .little ((link.ifInfoMsg AF_BRIDGE).asBytes .little ++ rest)) =
      vlansOf .little ifindex
        (attrIter .little (rest.drop (nlaAlign link.flagsLength - 8))) := by
  obtain ⟨f0, f1, f2, f3, isLength, skipped⟩ := vlansOf_header_little link ifindex rest
  have behind : (f0 :: f1 :: f2 :: f3 :: 0 :: 0 :: 0 :: 0 :: rest).drop
          (nlaAlign link.flagsLength) =
        rest.drop (nlaAlign link.flagsLength - 8) := by
    have eight : nlaAlign link.flagsLength = (nlaAlign link.flagsLength - 8) + 8 := by
      rw [nlaAlign]
      omega
    rw [eight]
    rfl
  have next : nextAttr .little (f0 :: f1 :: f2 :: f3 :: 0 :: 0 :: 0 :: 0 :: rest) = some
          ((ByteOrder.little.ofBytes [f2, f3] % NLA_F_NET_BYTEORDER,
            (0 :: 0 :: 0 :: 0 :: rest).take (link.flagsLength - 4)),
            rest.drop (nlaAlign link.flagsLength - 8)) := by
    rw [nextAttr_cons, isLength, if_neg, behind]
    simp only [length_cons]
    omega
  rw [skipped, attrIter_of_next next, vlansOf_cons, parseAfSpecVlans_zeros,
    ite_self, List.nil_append]

/-- The walk over a reply goes on at a place inside the attributes. -/
def SkipsTo (order : ByteOrder) (link : Link) (place : Nat) : Prop :=
  ∀ rest : List UInt8, place < rest.length → ∃ skipped, vlansOf order link.index
          (attrIter order ((link.ifInfoMsg AF_BRIDGE).asBytes order ++ rest)) =
        skipped ++ vlansOf order link.index (attrIter order (rest.drop place))

theorem skipsTo_little (long : 9 ≤ link.flagsLength) :
    SkipsTo .little link (nlaAlign link.flagsLength - 8) := by
  intro rest inside
  have grows := le_nlaAlign link.flagsLength
  exact ⟨[], vlansOf_goesOn link.index rest (by omega) (by omega)⟩

theorem skipsTo_big (link : Link) : SkipsTo .big link 1776 := by
  intro rest inside
  obtain ⟨t0, t1, typeBytes⟩ := length_eq_two.mp (ByteOrder.big.toBytes_length 2 link.linkType)
  have bytes : (link.ifInfoMsg AF_BRIDGE).asBytes .big ++ rest = 7 :: 0 :: t0 :: t1 ::
          (ByteOrder.big.toBytes 4 link.index ++ ByteOrder.big.toBytes 4 link.flags ++
            ByteOrder.big.toBytes 4 0 ++ rest) := by
    simp only [IfInfoMsg.asBytes, Link.ifInfoMsg, typeBytes]
    simp [AF_BRIDGE]
  have behind : ((link.ifInfoMsg AF_BRIDGE).asBytes .big ++ rest).drop 1792 = rest.drop 1776 := by
    rw [drop_append, ifInfoMsg_length, IfInfoMsg.SIZE,
      drop_of_length_le (by rw [ifInfoMsg_length, IfInfoMsg.SIZE]; decide),
      List.nil_append]
  have familyLength : ByteOrder.big.ofBytes [7, 0] = 1792 := rfl
  have next : ∃ attr, nextAttr .big ((link.ifInfoMsg AF_BRIDGE).asBytes .big ++ rest) =
          some (attr, rest.drop 1776) := by
    rw [← behind, bytes, nextAttr_cons, familyLength, if_neg]
    · exact ⟨_, rfl⟩
    · simp only [length_append, ByteOrder.toBytes_length]
      omega
  obtain ⟨⟨attrType, payload⟩, next⟩ := next
  rw [attrIter_of_next next, vlansOf_cons]
  exact ⟨_, rfl⟩

def oneVlan : VlanTable where
  vlans := [(1, { pvid := false, untagged := false })]
  ascending := .cons (by simp) .nil
  vids := by simp

/-- The bytes of an attribute that lists one VLAN. -/
def decoy (order : ByteOrder) : List UInt8 :=
  attrBytes order IflaAttr.AfSpec ((infoAttrs order oneVlan.infos).encode order)

/-- An attribute's type that carries bytes the user chose, such as an alias. -/
def IflaAttr.IfAlias : Nat := 20

/-- Attributes with the decoy at a given place. -/
def decoyAttrs (order : ByteOrder) (place : Nat) : Attrs :=
  if place = 4 then
    .leaf IflaAttr.IfAlias (decoy order) .nil
  else
    .leaf IflaAttr.IfAlias (List.replicate (place - 8) 0)
      (.leaf IflaAttr.IfAlias (decoy order) .nil)

theorem decoy_length : (decoy order).length = 12 := by
  rw [decoy, attrBytes_length, infoAttrs_length]
  decide

theorem vlansOf_decoy (ifindex : Nat) (rest : List UInt8) :
    vlansOf order ifindex (attrIter order (decoy order ++ rest)) = oneVlan.entries ifindex ++
        vlansOf order ifindex (attrIter order rest) := by
  have next :=
    nextAttr_attrBytes order rest (show IflaAttr.AfSpec < 256 ^ 2 by decide)
      (show NLA_HDRLEN + ((infoAttrs order oneVlan.infos).encode order).length ≤ 65535 by
        rw [infoAttrs_length]
        decide)
  rw [decoy, attrIter_of_next next, vlansOf_cons, if_pos (by decide), parseAfSpecVlans_infos]

theorem drop_decoyAttrs {place : Nat} (aligned : 4 ∣ place) (inside : 4 ≤ place)
    (rest : List UInt8) :
    ((decoyAttrs order place).encode order ++ rest).drop place = decoy order ++ rest := by
  have afterHeader : ∀ behind : List UInt8,
      (attrBytes order IflaAttr.IfAlias (decoy order) ++ behind).drop 4 =
        decoy order ++ behind := by
    intro behind
    have unpadded : padding (4 + (decoy order).length) = [] := by
      rw [decoy_length]
      rfl
    rw [attrBytes, unpadded, List.append_nil, ← List.append_assoc,
      List.append_assoc _ (decoy order)]
    exact drop_left' (by simp)
  rw [decoyAttrs]
  split
  · rename_i isFour
    rw [isFour, Attrs.encode, Attrs.encode, List.append_nil, afterHeader]
  · rename_i notFour
    obtain ⟨words, rfl⟩ : ∃ words, place = (4 * words + 4) + 4 := by
      obtain ⟨words, rfl⟩ := aligned
      exact ⟨words - 2, by omega⟩
    have fillerLength :
        (attrBytes order IflaAttr.IfAlias (List.replicate (4 * words + 4 + 4 - 8) 0)).length =
          4 * words + 4 := by
      rw [attrBytes_length, length_replicate, nlaAlign]
      omega
    rw [Attrs.encode, Attrs.encode, Attrs.encode, List.append_nil, List.append_assoc, ← drop_drop,
      drop_left' fillerLength, afterHeader]

theorem decoyAttrs_fits {place : Nat} (short : place ≤ 65528) :
    (decoyAttrs order place).Fits order := by
  have length := decoy_length order
  rw [decoyAttrs]
  split
  · exact ⟨by decide, by rw [length]; decide, trivial⟩
  · refine ⟨by decide, ?_, by decide, by rw [length]; decide, trivial⟩
    rw [length_replicate, NLA_HDRLEN]
    omega

/-- The decoy hides in attributes that the kernel may send. -/
def decoyOthers (order : ByteOrder) (place : Nat) (short : place ≤ 65528) :
    OtherAttrs order IflaAttr.AfSpec where
  attrs := decoyAttrs order place
  fits := decoyAttrs_fits order short
  absent :=
    by
      rw [decoyAttrs]
      split <;> simp [kinds, IflaAttr.IfAlias, IflaAttr.AfSpec]

def noOthers (order : ByteOrder) (kind : Nat) : OtherAttrs order kind where
  attrs := .nil
  fits := trivial
  absent := by simp [kinds]

/-!
## Whether bridge VLANs are read back

The VLANs of one port are read back only if the port's device flags happen to
spell the right length, since the reply is parsed from the wrong offset.  The
VLANs of a bridge are read back only for the bridge device, since the entries
of its ports are dropped before the ports are known.
-/

variable {order : ByteOrder}

variable {seq : Nat}

theorem checkReplies_others {frames : List Frame}
    (others : ∀ frame ∈ frames, frame.header.nlmsgSeq ≠ seq) (foundSeq : Bool) :
    checkReplies order seq foundSeq (frames.map fun frame => .ok frame.message) = .ok foundSeq := by
  induction frames with
  | nil => rfl
  | cons frame rest ih =>
      obtain ⟨other, restOthers⟩ := forall_mem_cons.mp others
      rw [map_cons, Frame.message, checkReplies, if_pos other]
      exact ih restOthers

variable {unrelated : List (List Frame)} {frame : Frame}

variable (later : List (List Frame))

theorem sendRequestMutex_reply
    (others : ∀ frames ∈ unrelated, ∀ other ∈ frames, other.header.nlmsgSeq ≠ seq)
    (forRequest : frame.header.nlmsgSeq = seq) (notError : frame.header.isError = false) :
    sendRequestMutex order seq ((unrelated ++ [frame] :: later).map (datagram order)) =
      some (.ok (datagram order [frame])) := by
  induction unrelated with
  | nil =>
      have found : checkReplies order seq false (messageIter order (datagram order [frame])) =
            .ok true := by
        rw [messageIter_datagram]
        simp [checkReplies, Frame.message, forRequest, checkError, notError]
      rw [List.nil_append, map_cons, sendRequestMutex, found]
  | cons frames rest ih =>
      obtain ⟨here, restOthers⟩ := forall_mem_cons.mp others
      rw [cons_append, map_cons, sendRequestMutex, messageIter_datagram, checkReplies_others here]
      exact ih restOthers

variable {link : Link}

theorem IsVlanReply.isEntry (isReply : IsVlanReply order link frame) : frame.IsEntry where
  notError := by rw [NlMsgHdr.isError, isReply.isLink]; rfl
  notDone := by rw [NlMsgHdr.isDone, isReply.isLink]; rfl
  consistent := isReply.consistent

theorem getBridgeVlansByIndex_reply
    (others : ∀ frames ∈ unrelated, ∀ other ∈ frames, other.header.nlmsgSeq ≠ seq)
    (forRequest : frame.header.nlmsgSeq = seq) (notError : frame.header.isError = false)
    {attrs : Attrs}
    (content : frame.payload = (link.ifInfoMsg AF_BRIDGE).asBytes order ++ attrs.encode order) :
    getBridgeVlansByIndex order seq link.index
        ((unrelated ++ [frame] :: later).map (datagram order)) =
      some
        (.ok (vlansOf order link.index (attrIter order
              ((link.ifInfoMsg AF_BRIDGE).asBytes order ++ attrs.encode order)))) := by
  have lenRight := frame.lenRight
  have aligned : 4 ∣ (attrs.encode order).length := dvd_length_encode order attrs
  have unpadded : nlmsgAlign frame.header.nlmsgLen = frame.header.nlmsgLen := by
    rw [lenRight, content, length_append, ifInfoMsg_length,
      NLMSG_HDRLEN, IfInfoMsg.SIZE, nlmsgAlign]
    omega
  have whole : datagram order [frame] = frame.header.asBytes order ++
          ((link.ifInfoMsg AF_BRIDGE).asBytes order ++ attrs.encode order) := by
    rw [datagram, flatMap_singleton, Frame.bytes, unpadded, Nat.sub_self,
      replicate_zero, List.append_nil, Frame.messageBytes, content]
  have headerLength : (frame.header.asBytes order).length = IfInfoMsg.SIZE :=
    asBytes_length order frame.header
  have long : ¬ (datagram order [frame]).length < IfInfoMsg.SIZE := by
    rw [whole, length_append, headerLength]
    omega
  rw [getBridgeVlansByIndex, sendRequestMutex_reply later others forRequest notError]
  simp only
  rw [parseVlanEntries, if_neg long, whole, drop_left' headerLength]

theorem replyLength_lt {length : Nat} (short : length < 2 ^ 20) :
    NLMSG_HDRLEN + (16 + length) < 256 ^ 4 := by
  simp only [NLMSG_HDRLEN]
  omega

/-- The message about a link with the given attributes. -/
def replyFrame (order : ByteOrder) (link : Link) (family seq : Nat) (attrs : Attrs)
    (seqFits : seq < 256 ^ 4)
    (short : (attrs.encode order).length < 2 ^ 20) : Frame where
  header :=
    { nlmsgLen := NLMSG_HDRLEN + (16 + (attrs.encode order).length)
      nlmsgType := RTM_NEWLINK
      nlmsgFlags := 0
      nlmsgSeq := seq
      nlmsgPid := 0 }
  payload := (link.ifInfoMsg family).asBytes order ++ attrs.encode order
  lenRight := by rw [length_append, ifInfoMsg_length, IfInfoMsg.SIZE]
  lenFits := replyLength_lt short
  typeFits := minType_lt_half
  flagsFit := zero_lt_half
  seqFits := seqFits
  pidFits := zero_lt_word

/-- Attributes with a link's VLANs behind others. -/
def vlanAttrs (order : ByteOrder) (link : Link) (before : Attrs) : Attrs :=
  before ++ Attrs.leaf IflaAttr.AfSpec ((infoAttrs order link.vlans.infos).encode order) .nil

theorem vlanAttrs_length_lt (link : Link) {before : Attrs}
    (short : (before.encode order).length ≤ 2 ^ 17) :
    ((vlanAttrs order link before).encode order).length < 2 ^ 20 := by
  have few := link.vlans.infos_length_le
  rw [vlanAttrs, encode_append, length_append, Attrs.encode, length_append,
    attrBytes_length, infoAttrs_length, nlaAlign, Attrs.encode, length_nil]
  omega

/-- The message with a link's VLANs behind other attributes. -/
def vlanFrame (order : ByteOrder) (link : Link) (seq : Nat)
    (before : OtherAttrs order IflaAttr.AfSpec) (seqFits : seq < 256 ^ 4)
    (short : (before.attrs.encode order).length ≤ 2 ^ 17) : Frame :=
  replyFrame order link AF_BRIDGE seq (vlanAttrs order link before.attrs)
    seqFits (vlanAttrs_length_lt link short)

theorem isVlanReply_vlanFrame {before : OtherAttrs order IflaAttr.AfSpec} {seqFits : seq < 256 ^ 4}
    {short : (before.attrs.encode order).length ≤ 2 ^ 17} :
    IsVlanReply order link (vlanFrame order link seq before seqFits short) where
  isLink := rfl
  consistent := by simp [vlanFrame, replyFrame, NlMsgHdr.isDumpInterrupted]
  content := ⟨before, noOthers order IflaAttr.AfSpec, rfl⟩

theorem getBridgeVlansByIndex_vlanFrame (link : Link) (seq : Nat)
    (before : OtherAttrs order IflaAttr.AfSpec) (seqFits : seq < 256 ^ 4)
    (short : (before.attrs.encode order).length ≤ 2 ^ 17) :
    getBridgeVlansByIndex order seq link.index
        [datagram order [vlanFrame order link seq before seqFits short]] =
      some
        (.ok (vlansOf order link.index (attrIter order ((link.ifInfoMsg AF_BRIDGE).asBytes order ++
                (vlanAttrs order link before.attrs).encode order)))) :=
  getBridgeVlansByIndex_reply [] (forall_mem_nil _) rfl isVlanReply_vlanFrame.isEntry.notError rfl

/-- Bridge VLANs are read back completely: those of each link from the reply
about it, and those of a bridge and its ports from a dump. -/
structure ReadsBack (order : ByteOrder) (bridge : Nat) (links : List Link) : Prop where
  port : ∀ link ∈ links, ∀ (seq : Nat) (frame : Frame) (unrelated later : List (List Frame)),
    IsVlanReply order link frame → frame.header.nlmsgSeq = seq →
        (∀ frames ∈ unrelated, ∀ other ∈ frames, other.header.nlmsgSeq ≠ seq) → ∃ entries,
            getBridgeVlansByIndex order seq link.index
                ((unrelated ++ [frame] :: later).map (datagram order)) =
              some (.ok entries) ∧
            entries.Perm link.entries
  all : ∀ (vlanSeq linkSeq : Nat) (vlanFrames linkFrames : List Frame)
      (vlanDatagrams linkDatagrams : List (List Frame)),
    List.Forall₂ (IsVlanReply order) links vlanFrames →
      List.Forall₂ (IsLinkReply order) links linkFrames →
        CarriesDump vlanSeq vlanFrames vlanDatagrams →
          CarriesDump linkSeq linkFrames linkDatagrams → ∃ entries,
              getBridgeVlansAllByIndex order vlanSeq linkSeq bridge
                  (vlanDatagrams.map (datagram order))
                  (linkDatagrams.map (datagram order)) =
                .finished entries ∧
              entries.Perm ((links.filter (Link.ofBridge bridge)).flatMap Link.entries)

/-- The link's flags spell a length that takes the walk to the attributes, or
one that ends it and there is nothing to find. -/
def Link.ReadFromFlags (order : ByteOrder) (link : Link) : Prop :=
  order = .little ∧
    (5 ≤ link.flagsLength ∧ link.flagsLength ≤ 8 ∨ link.flagsLength ≤ 4 ∧ link.vlans.vlans = [])

theorem entries_eq_nil {link : Link} : link.entries = [] ↔ link.vlans.vlans = [] := by
  rw [Link.entries, VlanTable.entries, map_eq_nil_iff]

theorem getBridgeVlansByIndex_readFromFlags (right : link.ReadFromFlags order)
    (later : List (List Frame)) (isReply : IsVlanReply order link frame)
    (forRequest : frame.header.nlmsgSeq = seq)
    (others : ∀ frames ∈ unrelated, ∀ other ∈ frames, other.header.nlmsgSeq ≠ seq) :
    getBridgeVlansByIndex order seq link.index
        ((unrelated ++ [frame] :: later).map (datagram order)) =
      some (.ok link.entries) := by
  obtain ⟨before, after, content⟩ := isReply.content
  rw [getBridgeVlansByIndex_reply later others forRequest isReply.isEntry.notError content]
  obtain ⟨rfl, ⟨long, short⟩ | ⟨short, empty⟩⟩ := right
  · have start : nlaAlign link.flagsLength - 8 = 0 := by
      rw [nlaAlign]
      omega
    rw [vlansOf_goesOn link.index _ long (by omega), start, drop_zero, vlansOf_reply]
  · rw [vlansOf_stops link.index _ (Or.inl short), entries_eq_nil.mpr empty]

theorem getBridgeVlansByIndex_nothing
    (isReply : IsVlanReply .little link frame) (forRequest : frame.header.nlmsgSeq = seq)
    (others : ∀ frames ∈ unrelated, ∀ other ∈ frames, other.header.nlmsgSeq ≠ seq)
    (beyond : frame.payload.length < link.flagsLength + 8) :
    getBridgeVlansByIndex .little seq link.index
        ((unrelated ++ [frame] :: later).map (datagram .little)) =
      some (.ok []) := by
  obtain ⟨before, after, content⟩ := isReply.content
  rw [content, length_append, ifInfoMsg_length, IfInfoMsg.SIZE] at beyond
  rw [getBridgeVlansByIndex_reply later others forRequest isReply.isEntry.notError content,
    vlansOf_stops link.index _ (Or.inr (by omega))]

variable {bridge : Nat} {links : List Link}

/-- Where the walk goes on inside the attributes, an attribute of the user's
can add a VLAN. -/
theorem not_port_of_skipsTo (member : link ∈ links) {place : Nat} (skips : SkipsTo order link place)
    (aligned : 4 ∣ place) (inside : 4 ≤ place) (short : place ≤ 65528) :
    ¬ ReadsBack order bridge links := by
  intro readsBack
  have othersLength : ((decoyOthers order place short).attrs.encode order).length ≤ 2 ^ 17 := by
    change ((decoyAttrs order place).encode order).length ≤ _
    rw [decoyAttrs]
    split
    · rw [Attrs.encode, length_append, attrBytes_length, decoy_length, Attrs.encode, nlaAlign]
      decide
    · rw [Attrs.encode, Attrs.encode, Attrs.encode, List.append_nil,
        length_append, attrBytes_length, attrBytes_length,
        decoy_length, length_replicate, nlaAlign, nlaAlign]
      omega
  obtain ⟨entries, returns, same⟩ :=
    readsBack.port link member 1
      (vlanFrame order link 1 (decoyOthers order place short) (by decide) othersLength) [] []
      isVlanReply_vlanFrame rfl (by simp)
  have parsed :=
    getBridgeVlansByIndex_vlanFrame link 1 (decoyOthers order place short) (by decide) othersLength
  have behind : ((vlanAttrs order link (decoyAttrs order place)).encode order).drop place =
        decoy order ++
          (Attrs.leaf IflaAttr.AfSpec ((infoAttrs order link.vlans.infos).encode order)
            .nil).encode order := by
    rw [vlanAttrs, encode_append, drop_decoyAttrs order aligned inside]
  have room : place < ((vlanAttrs order link (decoyAttrs order place)).encode order).length := by
    have length := congrArg List.length behind
    rw [length_drop, length_append, decoy_length] at length
    omega
  obtain ⟨skipped, found⟩ := skips _ room
  have own := vlansOf_reply link (noOthers order IflaAttr.AfSpec) (noOthers order IflaAttr.AfSpec)
  rw [behind, vlansOf_decoy] at found
  have shape : entries = skipped ++ (oneVlan.entries link.index ++ link.entries) := by
    rw [← own]
    have sameEntries := Option.some.inj (returns.symm.trans parsed)
    exact (Except.ok.inj sameEntries).trans found
  have lengths := same.length_eq
  rw [shape, length_append, length_append] at lengths
  simp only [oneVlan, VlanTable.entries, length_map, length_singleton] at lengths
  omega

theorem not_port_of_short (member : link ∈ links) (short : link.flagsLength ≤ 4)
    (vlans : link.vlans.vlans ≠ []) : ¬ ReadsBack .little bridge links := by
  intro readsBack
  obtain ⟨entries, returns, same⟩ :=
    readsBack.port link member 1
      (vlanFrame .little link 1 (noOthers .little IflaAttr.AfSpec)
        (by decide) (Nat.zero_le _)) [] []
      isVlanReply_vlanFrame rfl (by simp)
  have parsed :=
    getBridgeVlansByIndex_vlanFrame link 1 (noOthers .little IflaAttr.AfSpec)
      (by decide) (Nat.zero_le _)
  rw [vlansOf_stops link.index _ (Or.inl short)] at parsed
  have sameEntries := Option.some.inj (returns.symm.trans parsed)
  rw [Except.ok.inj sameEntries] at same
  exact vlans (entries_eq_nil.mp same.nil_eq.symm)

theorem readFromFlags_of_readsBack (readsBack : ReadsBack order bridge links)
    (member : link ∈ links) : link.ReadFromFlags order := by
  cases order with
  | big =>
      exact absurd readsBack
        (not_port_of_skipsTo member (skipsTo_big link) (by decide) (by decide) (by decide))
  | little =>
      refine ⟨rfl, ?_⟩
      have bound : link.flagsLength < 65536 := Nat.mod_lt _ (by decide)
      by_cases long : 9 ≤ link.flagsLength
      · have aligned : 4 ∣ nlaAlign link.flagsLength - 8 := by
          rw [nlaAlign]
          omega
        have inside : 4 ≤ nlaAlign link.flagsLength - 8 := by
          rw [nlaAlign]
          omega
        have short : nlaAlign link.flagsLength - 8 ≤ 65528 := by
          rw [nlaAlign]
          omega
        exact absurd readsBack
          (not_port_of_skipsTo member (skipsTo_little long) aligned inside short)
      · by_cases vlans : link.vlans.vlans = []
        · by_cases short : link.flagsLength ≤ 4
          · exact Or.inr ⟨short, vlans⟩
          · exact Or.inl ⟨by omega, by omega⟩
        · by_cases short : link.flagsLength ≤ 4
          · exact absurd readsBack (not_port_of_short member short vlans)
          · exact Or.inl ⟨by omega, by omega⟩

theorem ifindex_of_mem_entries {entry : BridgeVlanEntry} (member : entry ∈ link.entries) :
    entry.ifindex = link.index := by
  rw [Link.entries, VlanTable.entries] at member
  obtain ⟨vlan, _, rfl⟩ := mem_map.mp member
  rfl

theorem bridgeEntries_reply (bridge : Nat) (isReply : IsVlanReply order link frame) :
    bridgeEntries order bridge (frame.messageBytes order) =
      if link.index = bridge then link.entries else [] := by
  rw [bridgeEntries, parseVlanEntriesFromDump_reply isReply]
  simp only
  split
  · rename_i isBridge
    refine filter_eq_self.mpr fun entry member => ?_
    simp [ifindex_of_mem_entries member, isBridge]
  · rename_i other
    refine filter_eq_nil_iff.mpr fun entry member => ?_
    simp [ifindex_of_mem_entries member, other]

theorem bridgeEntries_replies (bridge : Nat) {frames : List Frame}
    (replies : List.Forall₂ (IsVlanReply order) links frames) :
    (frames.map (Frame.messageBytes order)).flatMap (bridgeEntries order bridge) =
      (links.filter fun link => link.index = bridge).flatMap Link.entries := by
  induction replies with
  | nil => rfl
  | cons isReply _ ih =>
      rw [map_cons, flatMap_cons, ih, bridgeEntries_reply bridge isReply, filter_cons]
      split <;> simp_all

theorem getBridgeVlansAllByIndex_replies {bridge vlanSeq linkSeq : Nat}
    {vlanFrames linkFrames : List Frame} {vlanDatagrams linkDatagrams : List (List Frame)}
    (replies : List.Forall₂ (IsVlanReply order) links vlanFrames)
    (vlanDump : CarriesDump vlanSeq vlanFrames vlanDatagrams)
    (linkDump : CarriesDump linkSeq linkFrames linkDatagrams) :
    getBridgeVlansAllByIndex order vlanSeq linkSeq bridge (vlanDatagrams.map (datagram order))
        (linkDatagrams.map (datagram order)) =
      .finished
        ((links.filter fun link => link.index = bridge).flatMap Link.entries) := by
  rw [getBridgeVlansAllByIndex, sendDumpMutex_carries vlanDump, getLinks,
    sendDumpMutex_carries linkDump]
  simp only [bridgeEntries_replies bridge replies]
  refine congrArg Progress.finished (filter_eq_self.mpr ?_)
  intro entry member
  obtain ⟨link, isBridge, inLink⟩ := mem_flatMap.mp member
  have index : link.index = bridge := by simpa using of_mem_filter isBridge
  simp [ifindex_of_mem_entries inLink, index]

theorem masterAttr_length_lt (master : Option Nat) :
    ((masterAttr order master).encode order).length < 2 ^ 20 := by
  cases master with
  | none => simp [masterAttr, Attrs.encode]
  | some master => simp [masterAttr, Attrs.encode, attrBytes_length, nlaAlign]

/-- The message with a link's master and nothing else. -/
def linkFrame (order : ByteOrder) (link : Link) : Frame :=
  replyFrame order link 0 1 (masterAttr order link.master) one_lt_word
    (masterAttr_length_lt link.master)

theorem isLinkReply_linkFrame (link : Link) : IsLinkReply order link (linkFrame order link) where
  isLink := rfl
  consistent := by simp [linkFrame, replyFrame, NlMsgHdr.isDumpInterrupted]
  content :=
    ⟨noOthers order IflaAttr.Master, noOthers order IflaAttr.Master, by
      change _ = _ ++ (masterAttr order link.master ++ Attrs.nil).encode order
      rw [Attrs.append_nil]
      rfl⟩

/-- The message with a link's VLANs and nothing else. -/
def plainFrame (order : ByteOrder) (link : Link) : Frame :=
  vlanFrame order link 1 (noOthers order IflaAttr.AfSpec) (by decide) (Nat.zero_le _)

theorem isEntry_linkFrame (link : Link) : (linkFrame order link).IsEntry where
  notError := rfl
  notDone := rfl
  consistent := (isLinkReply_linkFrame link).consistent

theorem noVlans_of_readsBack (readsBack : ReadsBack order bridge links) (member : link ∈ links)
    (isPort : link.master = some bridge) (other : link.index ≠ bridge) : link.vlans.vlans = [] := by
  have replies : List.Forall₂ (IsVlanReply order) links (links.map (plainFrame order)) :=
    forall₂_map_right_iff.mpr (forall₂_same.mpr fun _ _ => isVlanReply_vlanFrame)
  have linkReplies : List.Forall₂ (IsLinkReply order) links (links.map (linkFrame order)) :=
    forall₂_map_right_iff.mpr (forall₂_same.mpr fun link _ => isLinkReply_linkFrame link)
  have vlanSound : ∀ frame ∈ links.map (plainFrame order),
      frame.IsEntry ∧ frame.header.nlmsgSeq = 1 :=
    forall_mem_map.mpr fun _ _ => ⟨isVlanReply_vlanFrame.isEntry, rfl⟩
  have linkSound : ∀ frame ∈ links.map (linkFrame order),
      frame.IsEntry ∧ frame.header.nlmsgSeq = 1 :=
    forall_mem_map.mpr fun link _ => ⟨isEntry_linkFrame link, rfl⟩
  have vlanDump := carriesDump_one (by decide) vlanSound
  have linkDump := carriesDump_one (by decide) linkSound
  obtain ⟨entries, returns, same⟩ := readsBack.all 1 1 _ _ _ _ replies linkReplies vlanDump linkDump
  rw [getBridgeVlansAllByIndex_replies replies vlanDump linkDump] at returns
  rw [← entries_eq_nil]
  refine eq_nil_iff_forall_not_mem.mpr fun entry inLink => ?_
  have expected : entry ∈ (links.filter (Link.ofBridge bridge)).flatMap Link.entries :=
    mem_flatMap_of_mem (mem_filter.mpr ⟨member, by simp [Link.ofBridge, isPort]⟩) inLink
  have found := same.mem_iff.mpr expected
  rw [← Progress.finished.inj returns] at found
  obtain ⟨own, isBridge, inOwn⟩ := mem_flatMap.mp found
  have index : own.index = bridge := by simpa using of_mem_filter isBridge
  have isOwn := ifindex_of_mem_entries inOwn
  rw [ifindex_of_mem_entries inLink, index] at isOwn
  exact other isOwn

theorem entries_ofBridge
    (empty : ∀ link ∈ links, link.master = some bridge →
      link.index ≠ bridge → link.vlans.vlans = []) :
    (links.filter fun link => link.index = bridge).flatMap Link.entries =
      (links.filter (Link.ofBridge bridge)).flatMap Link.entries := by
  induction links with
  | nil => rfl
  | cons link rest ih =>
      obtain ⟨here, later⟩ := forall_mem_cons.mp empty
      have rests := ih later
      by_cases isBridge : link.index = bridge
      · simp [isBridge, Link.ofBridge, rests]
      · by_cases isPort : link.master = some bridge
        · have noEntries := entries_eq_nil.mpr (here isPort isBridge)
          simp [isBridge, isPort, Link.ofBridge, noEntries, rests]
        · simp [isBridge, isPort, Link.ofBridge, rests]

/-- Bridge VLANs are read back completely exactly when the flags of each link
spell the right length, and no port of the bridge has VLANs. -/
theorem readsBack_iff (order : ByteOrder) (bridge : Nat) (links : List Link) :
    ReadsBack order bridge links ↔ (∀ link ∈ links, link.ReadFromFlags order) ∧
        ∀ link ∈ links, link.master = some bridge → link.index ≠ bridge →
          link.vlans.vlans = [] := by
  constructor
  · intro readsBack
    exact ⟨fun link member => readFromFlags_of_readsBack readsBack member,
        fun link member isPort other => noVlans_of_readsBack readsBack member isPort other⟩
  · rintro ⟨right, empty⟩
    constructor
    · intro link member seq frame unrelated later isReply forRequest others
      exact ⟨_, getBridgeVlansByIndex_readFromFlags (right link member) later
          isReply forRequest others, .refl _⟩
    · intro vlanSeq linkSeq vlanFrames linkFrames vlanDatagrams linkDatagrams
        replies _ vlanDump linkDump
      refine ⟨_, getBridgeVlansAllByIndex_replies replies vlanDump linkDump, ?_⟩
      exact .of_eq (entries_ofBridge empty)

def ethernetPort : Link where
  index := 5
  linkType := 1
  flags := 0x11043
  master := some 2
  vlans :=
    { vlans := [(10, { pvid := true, untagged := true })]
      ascending := .cons (by simp) .nil
      vids := by simp }
  indexFits := by decide
  typeFits := by decide
  flagsFit := by decide

/-- No VLAN of a running Ethernet port is read back. -/
theorem not_readsBack_ethernetPort : ¬ ReadsBack .little 2 [ethernetPort] := by
  intro readsBack
  obtain ⟨entries, returns, same⟩ :=
    readsBack.port ethernetPort (mem_singleton_self _) 1
      (plainFrame .little ethernetPort) [] [] isVlanReply_vlanFrame rfl
      (forall_mem_nil _)
  have nothing :=
    getBridgeVlansByIndex_nothing [] isVlanReply_vlanFrame
      (show (plainFrame .little ethernetPort).header.nlmsgSeq = 1 from rfl)
      (forall_mem_nil _) (by decide +kernel)
  have sameEntries := Option.some.inj (returns.symm.trans nothing)
  rw [Except.ok.inj sameEntries] at same
  cases entries_eq_nil.mp same.nil_eq.symm

end Nlink.BridgeVlan
