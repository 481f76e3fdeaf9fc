import Nlink.Foundation.Frames
import Nlink.NetlinkReply

namespace Nlink.Netlink

open Foundation List Slice

/-!
# Iterators over bytes from anywhere

The iterators over messages and attributes hold the slice that is left of a
buffer.  Lengths are read from the buffer and may be anything, and so may the
address that the buffer begins at.  A call panics only where it takes a slice
that is out of bounds.
-/

section Next

variable (order : ByteOrder) (address : Nat) (buffer : List UInt8)

/-- `NlMsgHdr::from_bytes`, which refuses bytes that are too few for a header or
not aligned for one. -/
def NlMsgHdr.refFromPrefix (rest : Slice) : Except Error NlMsgHdr :=
  if (address + rest.start) % 4 ≠ 0 then
    .error (.truncated 16 rest.len)
  else
    NlMsgHdr.fromBytes order (rest.bytes buffer)

/-- `NlAttr::from_bytes`, likewise. -/
def NlAttr.refFromPrefix (rest : Slice) : Option NlAttr :=
  if (address + rest.start) % 2 ≠ 0 then none else NlAttr.fromBytes order (rest.bytes buffer)

/-- What is left behind an item: nothing, if its padding reaches to the end. -/
def restBehind (rest : Slice) (alignedLen : Nat) : Option Slice :=
  if rest.len ≤ alignedLen then some empty else rest.sub? alignedLen rest.len

/-- `MessageIter::next`: the header and where the payload is. -/
def MessageIter.next (rest : Slice) : Option (Option (Except Error (NlMsgHdr × Slice)) × Slice) :=
  if rest.len < NLMSG_HDRLEN then
    some (none, rest)
  else
    match NlMsgHdr.refFromPrefix order address buffer rest with
    | .error error => some (some (.error error), empty)
    | .ok header =>
        let msgLen := header.nlmsgLen
        if msgLen < NLMSG_HDRLEN ∨ rest.len < msgLen then
          some
            (some (.error (.invalidMessage ("invalid message length: " ++ toString msgLen))),
              empty)
        else do
          let payload ← rest.sub? NLMSG_HDRLEN msgLen
          let behind ← restBehind rest (nlmsgAlign msgLen)
          return (some (.ok (header, payload)), behind)

/-- `AttrIter::next`: the type without its flags and where the payload is. -/
def AttrIter.next (rest : Slice) : Option (Option (Nat × Slice) × Slice) :=
  if rest.len < NLA_HDRLEN then
    some (none, rest)
  else
    match NlAttr.refFromPrefix order address buffer rest with
    | none => some (none, rest)
    | some attr =>
        let len := attr.nlaLen
        if len < NLA_HDRLEN ∨ rest.len < len then
          some (none, rest)
        else do
          let payload ← rest.sub? NLA_HDRLEN len
          let behind ← restBehind rest (nlaAlign len)
          return (some (attr.kind, payload), behind)

end Next

section Shape

variable {order : ByteOrder} {address : Nat} {buffer : List UInt8}

/-- What an iterator has left: the end of the buffer, or nothing. -/
def Remains (buffer : List UInt8) (rest : Slice) : Prop :=
  rest.stop = buffer.length ∨ rest = empty

/-- How far an iterator has come. -/
def position (buffer : List UInt8) (rest : Slice) : Nat :=
  buffer.length - rest.len

/-- The frame of a payload: the header is in front of it. -/
def frameOf (headerLen : Nat) (payload : Slice) : Slice where
  start := payload.start - headerLen
  len := headerLen + payload.len

/-- What is taken of the rest for an item: no slice is out of bounds, and less is
left. -/
theorem exists_item {rest : Slice} {headerLen len : Nat} (remains : Remains buffer rest)
    (positive : 0 < headerLen) (lower : headerLen ≤ len) (upper : len ≤ rest.len) :
    rest.start = position buffer rest ∧
    ∃ payload behind, rest.sub? headerLen len = some payload ∧
      restBehind rest (nlaAlign len) = some behind ∧
      payload.start = position buffer rest + headerLen ∧ headerLen + payload.len = len ∧
      payload.stop ≤ buffer.length ∧ Remains buffer behind ∧ behind.len < rest.len ∧
      position buffer behind = min (position buffer rest + nlaAlign len) buffer.length := by
  have grows := le_nlaAlign len
  have isEnd : rest.start + rest.len = buffer.length := by
    refine remains.resolve_right fun isEmpty => ?_
    rw [isEmpty, show Slice.empty.len = 0 from rfl] at upper
    omega
  have isStart : rest.start = position buffer rest := by
    rw [position]
    omega
  refine ⟨isStart, ?_⟩
  rw [Slice.sub?_eq_some ⟨lower, upper⟩, restBehind]
  split
  · refine ⟨_, empty, rfl, rfl, by rw [← isStart], by dsimp only; omega, ?_, .inr rfl, ?_, ?_⟩
    · rw [Slice.stop]
      dsimp only
      omega
    · rw [show Slice.empty.len = 0 from rfl]
      omega
    · rw [← isStart, position, show Slice.empty.len = 0 from rfl]
      omega
  · rename_i notReaching
    rw [Slice.sub?_eq_some ⟨by omega, Nat.le_refl _⟩]
    refine ⟨_, _, rfl, rfl, by rw [← isStart], by dsimp only; omega, ?_, .inl ?_, ?_, ?_⟩
    · rw [Slice.stop]
      dsimp only
      omega
    · rw [Slice.stop]
      dsimp only
      omega
    · dsimp only
      omega
    · rw [← isStart, position]
      dsimp only
      omega

/-- The frame of an item that a call yields, and the frames behind it. -/
theorem tiles_cons {headerLen place last : Nat} {payload : Slice} {frames : List Slice}
    (start : payload.start = place + headerLen) (stop : payload.stop ≤ buffer.length)
    (tiles : Tiles nlaAlign buffer.length
      (min (place + nlaAlign (headerLen + payload.len)) buffer.length) frames last) :
    Tiles nlaAlign buffer.length place (frameOf headerLen payload :: frames) last := by
  have isStart : (frameOf headerLen payload).start = place := Nat.sub_eq_of_eq_add start
  rw [← isStart] at tiles ⊢
  refine .cons ?_ tiles
  rw [Slice.stop] at stop ⊢
  rw [isStart, frameOf]
  dsimp only
  omega

theorem bytes_frameOf {headerLen : Nat} {payload : Slice} (behind : headerLen ≤ payload.start) :
    (frameOf headerLen payload).bytes buffer =
      Slice.bytes buffer { start := payload.start - headerLen, len := headerLen } ++
        payload.bytes buffer := by
  have start : payload.start - headerLen + headerLen = payload.start := Nat.sub_add_cancel behind
  rw [frameOf, Slice.bytes, Slice.bytes, Slice.bytes, take_add, drop_drop, start]

theorem remains_whole : Remains buffer (whole buffer) :=
  .inl (Nat.zero_add _)

theorem position_whole : position buffer (whole buffer) = 0 :=
  Nat.sub_self _

theorem positive_frameOf {headerLen : Nat} (positive : 0 < headerLen) {ι : Type}
    (place : ι → Slice) (items : List ι) :
    ∀ frame ∈ items.map fun item => frameOf headerLen (place item), 0 < frame.len := by
  intro frame member
  obtain ⟨item, -, rfl⟩ := mem_map.mp member
  exact Nat.lt_of_lt_of_le positive (Nat.le_add_right _ _)

/-- Bytes that are read as a number and written again. -/
theorem toBytes_ofBytes_of_length {width : Nat} {bytes : List UInt8} (length : bytes.length = width) :
    order.toBytes width (order.ofBytes bytes) = bytes := by
  subst length
  exact order.toBytes_ofBytes bytes

/-- A header that was read has the bytes that it was read from. -/
theorem NlMsgHdr.asBytes_of_fromBytes {data : List UInt8} {header : NlMsgHdr}
    (read : NlMsgHdr.fromBytes order data = .ok header) : header.asBytes order = data.take 16 := by
  rw [NlMsgHdr.fromBytes] at read
  split at read
  · cases read
  · rename_i long
    cases read
    have back : ∀ start width : Nat, start + width ≤ 16 →
        order.toBytes width (order.ofBytes ((data.drop start).take width)) =
          (data.drop start).take width := by
      intro start width inside
      apply toBytes_ofBytes_of_length
      rw [length_take, length_drop]
      omega
    have front := back 0 4 (by decide)
    rw [drop_zero] at front
    rw [NlMsgHdr.asBytes]
    simp only [front, back 4 2 (by decide), back 6 2 (by decide), back 8 4 (by decide),
      back 12 4 (by decide)]
    have joined : ∀ front width : Nat,
        data.take front ++ (data.drop front).take width = data.take (front + width) :=
      fun front width => take_add.symm
    simp only [joined]

/-- A header that was read, with its flags, has the bytes that it was read from. -/
theorem NlAttr.asBytes_of_fromBytes {data : List UInt8} {attr : NlAttr}
    (read : NlAttr.fromBytes order data = some attr) :
    attr.asBytes order = data.take 4 ∧ attr.nlaLen < 65536 ∧ attr.nlaType < 65536 := by
  match data with
  | [] | [_] | [_, _] | [_, _, _] => cases read
  | l0 :: l1 :: t0 :: t1 :: rest =>
      cases read
      have bound : ∀ low high : UInt8, order.ofBytes [low, high] < 65536 := fun low high =>
        Nat.lt_of_lt_of_le (order.ofBytes_lt [low, high]) (show 256 ^ 2 ≤ 65536 by decide)
      have back : ∀ low high : UInt8, order.toBytes 2 (order.ofBytes [low, high]) = [low, high] :=
        fun low high => toBytes_ofBytes_of_length rfl
      refine ⟨?_, bound l0 l1, bound t0 t1⟩
      rw [NlAttr.asBytes, back, back]
      rfl

end Shape

/-!
## Messages
-/

section Messages

variable (order : ByteOrder) (buffer : List UInt8)

/-- A message that was yielded: its payload is behind a header with its length
and the fields that are returned. -/
structure MessageIs (message : NlMsgHdr × Slice) : Prop where
  behindHeader : NLMSG_HDRLEN ≤ message.2.start
  length : message.1.nlmsgLen = NLMSG_HDRLEN + message.2.len
  header : message.1.asBytes order =
    Slice.bytes buffer { start := message.2.start - NLMSG_HDRLEN, len := NLMSG_HDRLEN }

/-- The bytes of a message that was yielded, written again without padding. -/
def messageAgain (message : NlMsgHdr × Slice) : List UInt8 :=
  message.1.asBytes order ++ message.2.bytes buffer

variable {order buffer} {address : Nat}

theorem MessageIs.again {message : NlMsgHdr × Slice} (isMessage : MessageIs order buffer message) :
    messageAgain order buffer message = (frameOf NLMSG_HDRLEN message.2).bytes buffer := by
  rw [messageAgain, isMessage.header, bytes_frameOf isMessage.behindHeader]

/-- What a call does: it ends, or fails for good, or yields the next message. -/
theorem MessageIter.next_cases {rest : Slice} (remains : Remains buffer rest) :
    MessageIter.next order address buffer rest = some (none, rest) ∨
    (∃ error, MessageIter.next order address buffer rest =
      some (some (.error error), empty) ∧ 0 < rest.len) ∨
    ∃ message behind,
      MessageIter.next order address buffer rest = some (some (.ok message), behind) ∧
      MessageIs order buffer message ∧ message.2.stop ≤ buffer.length ∧
      message.2.start = position buffer rest + NLMSG_HDRLEN ∧
      Remains buffer behind ∧ behind.len < rest.len ∧
      position buffer behind =
        min (position buffer rest + nlmsgAlign (NLMSG_HDRLEN + message.2.len)) buffer.length := by
  rw [MessageIter.next]
  split
  · exact .inl rfl
  · rename_i long
    have nonempty : 0 < rest.len := Nat.lt_of_lt_of_le (by decide) (Nat.le_of_not_lt long)
    cases read : NlMsgHdr.refFromPrefix order address buffer rest with
    | error error => exact .inr (.inl ⟨error, rfl, nonempty⟩)
    | ok header =>
        simp only
        split
        · exact .inr (.inl ⟨_, rfl, nonempty⟩)
        · rename_i lengths
          obtain ⟨longEnough, inside⟩ := not_or.mp lengths
          have lower := Nat.le_of_not_lt longEnough
          have upper := Nat.le_of_not_lt inside
          obtain ⟨isStart, payload, behind, isPayload, isBehind, start, length, stop, remainsBehind,
            less, isPosition⟩ := exists_item remains (by decide) lower upper
          rw [isPayload, show restBehind rest (nlmsgAlign header.nlmsgLen) = some behind from
            isBehind]
          refine .inr (.inr ⟨(header, payload), behind, rfl, ⟨?_, length.symm, ?_⟩, stop, start,
            remainsBehind, less, ?_⟩)
          · rw [start]
            exact Nat.le_add_left _ _
          · rw [NlMsgHdr.refFromPrefix] at read
            split at read
            · cases read
            · rw [NlMsgHdr.asBytes_of_fromBytes read, start, Nat.add_sub_cancel, ← isStart,
                Slice.bytes, take_take]
              congr 1
              rw [NLMSG_HDRLEN] at lower
              exact Nat.min_eq_left (Nat.le_trans lower upper)
          · rw [length]
            exact isPosition

/-- What all calls yield: messages one behind the other, and at most one error
behind them. -/
theorem MessageIter.of_drains {rest last : Slice} {items : List (Except Error (NlMsgHdr × Slice))}
    (drains : Drains (MessageIter.next order address buffer) rest items last)
    (remains : Remains buffer rest) :
    ∃ (messages : List (NlMsgHdr × Slice)) (error : Option Error) (covered : Nat),
      items = messages.map .ok ++ error.toList.map .error ∧
      (∀ message ∈ messages, MessageIs order buffer message) ∧
      Tiles nlmsgAlign buffer.length (position buffer rest)
        (messages.map fun message => frameOf NLMSG_HDRLEN message.2) covered := by
  induction drains with
  | done ends => exact ⟨[], none, _, rfl, (fun _ member => nomatch member), .nil _⟩
  | item yields rest ih =>
      rcases @MessageIter.next_cases order buffer address _ remains with
        ends | ⟨error, fails, -⟩ |
        ⟨message, behind, gives, isMessage, stop, start, remainsBehind, less, isPosition⟩
      · rw [ends] at yields
        cases yields
      · rw [fails] at yields
        cases yields
        cases rest with
        | done _ => exact ⟨[], some error, _, rfl, (fun _ member => nomatch member), .nil _⟩
        | item yields _ => cases yields
      · rw [gives] at yields
        cases yields
        obtain ⟨messages, error, covered, rfl, areMessages, tiles⟩ := ih remainsBehind
        refine ⟨message :: messages, error, covered, rfl,
          forall_mem_cons.mpr ⟨isMessage, areMessages⟩, ?_⟩
        rw [isPosition] at tiles
        exact tiles_cons start stop tiles

end Messages

/-!
## Attributes
-/

section Attributes

variable (order : ByteOrder) (buffer : List UInt8)

/-- An attribute that was yielded: its payload is behind a header with its length
and, but for the flags, its type. -/
structure AttrIs (attr : Nat × Slice) (attrType : Nat) : Prop where
  behindHeader : NLA_HDRLEN ≤ attr.2.start
  kind : attrType % NLA_F_NET_BYTEORDER = attr.1
  typeFits : attrType < 65536
  header : (NlAttr.new attrType attr.2.len).asBytes order =
    Slice.bytes buffer { start := attr.2.start - NLA_HDRLEN, len := NLA_HDRLEN }

/-- The bytes of an attribute that was yielded, written again with a type and
without padding. -/
def attrAgain (attrType : Nat) (attr : Nat × Slice) : List UInt8 :=
  (NlAttr.new attrType attr.2.len).asBytes order ++ attr.2.bytes buffer

variable {order buffer} {address : Nat}

theorem AttrIs.again {attr : Nat × Slice} {attrType : Nat}
    (isAttr : AttrIs order buffer attr attrType) :
    attrAgain order buffer attrType attr = (frameOf NLA_HDRLEN attr.2).bytes buffer := by
  rw [attrAgain, isAttr.header, bytes_frameOf isAttr.behindHeader]

/-- What a call does: it ends, or yields the next attribute. -/
theorem AttrIter.next_cases {rest : Slice} (remains : Remains buffer rest) :
    AttrIter.next order address buffer rest = some (none, rest) ∨
    ∃ attr attrType behind,
      AttrIter.next order address buffer rest = some (some attr, behind) ∧
      AttrIs order buffer attr attrType ∧ attr.2.stop ≤ buffer.length ∧
      attr.2.start = position buffer rest + NLA_HDRLEN ∧
      Remains buffer behind ∧ behind.len < rest.len ∧
      position buffer behind =
        min (position buffer rest + nlaAlign (NLA_HDRLEN + attr.2.len)) buffer.length := by
  rw [AttrIter.next]
  split
  · exact .inl rfl
  · cases read : NlAttr.refFromPrefix order address buffer rest with
    | none => exact .inl rfl
    | some attr =>
        simp only
        split
        · exact .inl rfl
        · rename_i lengths
          obtain ⟨longEnough, inside⟩ := not_or.mp lengths
          have lower := Nat.le_of_not_lt longEnough
          have upper := Nat.le_of_not_lt inside
          obtain ⟨isStart, payload, behind, isPayload, isBehind, start, length, stop, remainsBehind,
            less, isPosition⟩ := exists_item remains (by decide) lower upper
          rw [NlAttr.refFromPrefix] at read
          split at read
          · cases read
          · obtain ⟨isHeader, lenFits, typeFits⟩ := NlAttr.asBytes_of_fromBytes read
            have isNew : NlAttr.new attr.nlaType payload.len = attr := by
              rw [NlAttr.new, length, Nat.min_eq_left (Nat.le_of_lt_succ lenFits)]
            rw [isPayload, isBehind]
            refine .inr ⟨(attr.kind, payload), attr.nlaType, behind, rfl, ⟨?_, rfl, typeFits, ?_⟩,
              stop, start, remainsBehind, less, ?_⟩
            · rw [start]
              exact Nat.le_add_left _ _
            · rw [isNew, isHeader, start, Nat.add_sub_cancel, ← isStart, Slice.bytes, take_take]
              congr 1
              exact Nat.min_eq_left (Nat.le_trans lower upper)
            · rw [length]
              exact isPosition

/-- What all calls yield: attributes one behind the other. -/
theorem AttrIter.of_drains {rest last : Slice} {attrs : List (Nat × Slice)}
    (drains : Drains (AttrIter.next order address buffer) rest attrs last)
    (remains : Remains buffer rest) :
    ∃ (types : List Nat) (covered : Nat), List.Forall₂ (AttrIs order buffer) attrs types ∧
      Tiles nlaAlign buffer.length (position buffer rest)
        (attrs.map fun attr => frameOf NLA_HDRLEN attr.2) covered := by
  induction drains with
  | done ends => exact ⟨[], _, .nil, .nil _⟩
  | item yields rest ih =>
      rcases @AttrIter.next_cases order buffer address _ remains with
        ends | ⟨attr, attrType, behind, gives, isAttr, stop, start, remainsBehind, less, isPosition⟩
      · rw [ends] at yields
        cases yields
      · rw [gives] at yields
        cases yields
        obtain ⟨types, covered, areAttrs, tiles⟩ := ih remainsBehind
        rw [isPosition] at tiles
        exact ⟨attrType :: types, covered, .cons isAttr areAttrs, tiles_cons start stop tiles⟩

theorem zipWith_attrAgain {attrs : List (Nat × Slice)} {types : List Nat}
    (areAttrs : List.Forall₂ (AttrIs order buffer) attrs types) :
    List.zipWith (attrAgain order buffer) types attrs =
      attrs.map fun attr => (frameOf NLA_HDRLEN attr.2).bytes buffer := by
  induction areAttrs with
  | nil => rfl
  | cons isAttr rest ih => rw [zipWith_cons_cons, map_cons, isAttr.again, ih]

end Attributes

/-!
## Safety
-/

section Safety

variable (order : ByteOrder) (address : Nat) (buffer : List UInt8)

/-- The iterator over messages is safe on a buffer.  Its calls yield messages
that lie one behind the other in the buffer, then at most one error, and then
nothing any more.  Written again, the messages are what they cover of the buffer,
but for padding. -/
def MessageIter.Safe : Prop :=
  ∃ (messages : List (NlMsgHdr × Slice)) (error : Option Error) (last : Slice) (covered : Nat),
    (∀ calls, buffer.length < calls →
      drain (MessageIter.next order address buffer) calls (whole buffer) =
        some (messages.map .ok ++ error.toList.map .error, last)) ∧
    MessageIter.next order address buffer last = some (none, last) ∧
    (∀ message ∈ messages, MessageIs order buffer message) ∧
    Laid nlmsgAlign buffer.length (messages.map fun message => frameOf NLMSG_HDRLEN message.2)
      covered ∧
    Padded nlmsgAlign (messages.map (messageAgain order buffer)) (buffer.take covered)

theorem MessageIter.safe : MessageIter.Safe order address buffer := by
  obtain ⟨items, last, drains, few⟩ := @exists_drains _ _ _ _ (Remains buffer) Slice.len
    (fun rest remains => by
      rcases @MessageIter.next_cases order buffer address rest remains with
        ends | ⟨error, fails, nonempty⟩ | ⟨message, behind, gives, _, _, _, remainsBehind, less, _⟩
      · exact .inl ends
      · exact .inr ⟨_, _, fails, .inr rfl, nonempty⟩
      · exact .inr ⟨_, _, gives, remainsBehind, less⟩)
    (@remains_whole buffer)
  obtain ⟨messages, error, covered, rfl, areMessages, tiles⟩ :=
    MessageIter.of_drains drains remains_whole
  rw [position_whole] at tiles
  have laid := tiles.laid le_nlaAlign (positive_frameOf (by decide) Prod.snd messages)
  refine ⟨messages, error, last, covered, fun calls enough => ?_, drains.ends, areMessages, laid, ?_⟩
  · exact drains.drain_eq (Nat.lt_of_le_of_lt few enough)
  · have padded := tiles.padded_bytes le_nlaAlign (positive_frameOf (by decide) Prod.snd messages)
    rw [map_map, drop_zero] at padded
    rw [map_congr_left fun message member => (areMessages message member).again]
    exact padded

/-- The iterator over attributes is safe on a buffer, likewise.  Written again with
types that are related to those yielded, the attributes are what they cover. -/
def AttrIter.Safe (sameType : Nat → Nat → Prop) : Prop :=
  ∃ (attrs : List (Nat × Slice)) (types : List Nat) (last : Slice) (covered : Nat),
    (∀ calls, buffer.length < calls →
      drain (AttrIter.next order address buffer) calls (whole buffer) = some (attrs, last)) ∧
    AttrIter.next order address buffer last = some (none, last) ∧
    List.Forall₂ (fun attr attrType => NLA_HDRLEN ≤ attr.2.start ∧ sameType attrType attr.1)
      attrs types ∧
    Laid nlaAlign buffer.length (attrs.map fun attr => frameOf NLA_HDRLEN attr.2) covered ∧
    Padded nlaAlign (List.zipWith (attrAgain order buffer) types attrs) (buffer.take covered)

/-- The types are the same but for their flags. -/
def SameKind (attrType kind : Nat) : Prop :=
  attrType < 65536 ∧ attrType % NLA_F_NET_BYTEORDER = kind

theorem AttrIter.safe : AttrIter.Safe order address buffer SameKind := by
  obtain ⟨attrs, last, drains, few⟩ := @exists_drains _ _ _ _ (Remains buffer) Slice.len
    (fun rest remains => by
      rcases @AttrIter.next_cases order buffer address rest remains with
        ends | ⟨attr, _, behind, gives, _, _, _, remainsBehind, less, _⟩
      · exact .inl ends
      · exact .inr ⟨_, _, gives, remainsBehind, less⟩)
    (@remains_whole buffer)
  obtain ⟨types, covered, areAttrs, tiles⟩ := AttrIter.of_drains drains remains_whole
  rw [position_whole] at tiles
  have positive := positive_frameOf (show 0 < NLA_HDRLEN by decide) Prod.snd attrs
  refine ⟨attrs, types, last, covered, fun calls enough => ?_, drains.ends, ?_,
    tiles.laid le_nlaAlign positive, ?_⟩
  · exact drains.drain_eq (Nat.lt_of_le_of_lt few enough)
  · exact areAttrs.imp fun _ _ isAttr => ⟨isAttr.behindHeader, isAttr.typeFits, isAttr.kind⟩
  · have padded := tiles.padded_bytes le_nlaAlign positive
    rw [map_map, drop_zero] at padded
    rw [zipWith_attrAgain areAttrs]
    exact padded

/-- Both iterators are safe on every buffer, wherever it begins.  An attribute's
type is yielded without its flags. -/
theorem iterators_safe :
    MessageIter.Safe order address buffer ∧ AttrIter.Safe order address buffer SameKind :=
  ⟨MessageIter.safe order address buffer, AttrIter.safe order address buffer⟩

end Safety

/-!
## The items without their places

On a buffer that is aligned the iterators yield what the loops over datagrams
and payloads go through.
-/

section Values

variable {order : ByteOrder} {address : Nat} {buffer : List UInt8}

theorem bytes_of_remains {rest : Slice} (isEnd : rest.stop = buffer.length) :
    rest.bytes buffer = buffer.drop rest.start := by
  rw [Slice.stop] at isEnd
  rw [Slice.bytes, take_of_length_le]
  rw [length_drop]
  omega

/-- What is taken of the rest, as bytes, and that the rest stays aligned. -/
theorem values_of_item {rest payload behind : Slice} {headerLen len unit : Nat}
    (isEnd : rest.stop = buffer.length) (isPayload : rest.sub? headerLen len = some payload)
    (isBehind : restBehind rest (nlaAlign len) = some behind)
    (aligned : (address + rest.start) % unit = 0) (divides : unit ∣ 4) :
    payload.bytes buffer = ((rest.bytes buffer).take len).drop headerLen ∧
      behind.bytes buffer = (rest.bytes buffer).drop (nlaAlign len) ∧
      (behind.len = 0 ∨ behind.stop = buffer.length ∧ (address + behind.start) % unit = 0) := by
  have length := bytes_of_remains isEnd
  rw [Slice.stop] at isEnd
  rw [Slice.sub?] at isPayload
  split at isPayload
  · cases isPayload
    refine ⟨by rw [length, Slice.bytes, drop_take, drop_drop], ?_⟩
    rw [restBehind] at isBehind
    split at isBehind
    · cases isBehind
      refine ⟨?_, .inl rfl⟩
      rw [length, drop_drop, drop_of_length_le (by omega)]
      rfl
    · rw [Slice.sub?] at isBehind
      split at isBehind
      · rename_i inside
        cases isBehind
        refine ⟨?_, .inr ⟨?_, ?_⟩⟩
        · rw [length, Slice.bytes, drop_drop, take_of_length_le]
          rw [length_drop]
          dsimp only
          omega
        · rw [Slice.stop]
          dsimp only
          omega
        · have whole : unit ∣ nlaAlign len := divides.trans (dvd_nlaAlign len)
          rw [← Nat.add_assoc, Nat.add_mod, aligned, Nat.mod_eq_zero_of_dvd whole]
          exact Nat.zero_mod unit
      · cases isBehind
  · cases isPayload

/-- What is left is aligned, or there is nothing left. -/
def Left (address : Nat) (buffer : List UInt8) (unit : Nat) (rest : Slice) : Prop :=
  rest.len = 0 ∨ rest.stop = buffer.length ∧ (address + rest.start) % unit = 0

theorem bytes_of_len_zero {rest : Slice} (nothing : rest.len = 0) : rest.bytes buffer = [] := by
  rw [Slice.bytes, nothing, take_zero]

theorem AttrIter.next_value {rest : Slice} (left : Left address buffer 2 rest) :
    (AttrIter.next order address buffer rest = some (none, rest) ∧
      nextAttr order (rest.bytes buffer) = none) ∨
    ∃ attr behind, AttrIter.next order address buffer rest = some (some attr, behind) ∧
      nextAttr order (rest.bytes buffer) =
        some ((attr.1, attr.2.bytes buffer), behind.bytes buffer) ∧
      Left address buffer 2 behind ∧ behind.len < rest.len := by
  rw [AttrIter.next, nextAttr]
  rcases left with nothing | ⟨isEnd, aligned⟩
  · rw [nothing, bytes_of_len_zero nothing]
    exact .inl ⟨rfl, rfl⟩
  · have length := bytes_length (Nat.le_of_eq isEnd)
    rw [length, NlAttr.refFromPrefix, if_neg (not_not.mpr aligned)]
    split
    · rename_i short
      rw [← length] at short
      refine .inl ⟨rfl, ?_⟩
      revert short
      rcases rest.bytes buffer with _ | ⟨_, _ | ⟨_, _ | ⟨_, _ | ⟨_, data⟩⟩⟩⟩
      · exact fun _ => rfl
      · exact fun _ => rfl
      · exact fun _ => rfl
      · exact fun _ => rfl
      · simp [NLA_HDRLEN]
    · cases read : NlAttr.fromBytes order (rest.bytes buffer) with
      | none => exact .inl ⟨rfl, rfl⟩
      | some attr =>
          simp only [Option.bind_eq_bind, Option.bind_some]
          split
          · exact .inl ⟨rfl, rfl⟩
          · rename_i lengths
            obtain ⟨longEnough, inside⟩ := not_or.mp lengths
            obtain ⟨-, payload, behind, isPayload, isBehind, -, -, -, -, less, -⟩ :=
              exists_item (.inl isEnd) (by decide) (Nat.le_of_not_lt longEnough)
                (Nat.le_of_not_lt inside)
            obtain ⟨payloadBytes, behindBytes, behindLeft⟩ :=
              values_of_item isEnd isPayload isBehind aligned (by decide)
            rw [isPayload, isBehind]
            refine .inr ⟨_, _, rfl, ?_, behindLeft, less⟩
            rw [payloadBytes, behindBytes]

end Values

/-!
## Slices inside of a buffer

A payload is a slice that may hold attributes again.  An iterator over it reads
nothing behind it.
-/

section Slices

variable {order : ByteOrder} {address : Nat} {buffer : List UInt8}

theorem bytes_take {stop : Nat} {slice : Slice} (inside : slice.stop ≤ stop) :
    slice.bytes (buffer.take stop) = slice.bytes buffer := by
  rw [Slice.stop] at inside
  rw [Slice.bytes, Slice.bytes, drop_take, take_take, Nat.min_eq_left (by omega)]

/-- A call on a slice reads nothing behind it. -/
theorem AttrIter.next_take (rest : Slice) :
    AttrIter.next order address (buffer.take rest.stop) rest =
      AttrIter.next order address buffer rest := by
  rw [AttrIter.next, AttrIter.next, NlAttr.refFromPrefix, NlAttr.refFromPrefix,
    bytes_take (Nat.le_refl _)]

/-- A slice of the buffer that is aligned for attributes, if it holds anything. -/
def AlignedIn (address : Nat) (buffer : List UInt8) (slice : Slice) : Prop :=
  slice.stop ≤ buffer.length ∧ (slice.len = 0 ∨ (address + slice.start) % 2 = 0)

/-- A call on an aligned slice: what it yields is in the buffer and aligned, and it
is what the bytes have. -/
theorem AttrIter.next_aligned {rest : Slice} (aligned : AlignedIn address buffer rest) :
    (AttrIter.next order address buffer rest = some (none, rest) ∧
      nextAttr order (rest.bytes buffer) = none) ∨
    ∃ attr behind, AttrIter.next order address buffer rest = some (some attr, behind) ∧
      nextAttr order (rest.bytes buffer) =
        some ((attr.1, attr.2.bytes buffer), behind.bytes buffer) ∧
      AlignedIn address buffer attr.2 ∧ AlignedIn address buffer behind ∧
      behind.len < rest.len := by
  obtain ⟨inside, even⟩ := aligned
  have length : (buffer.take rest.stop).length = rest.stop := length_take_of_le inside
  have left : Left address (buffer.take rest.stop) 2 rest :=
    even.imp_right fun even => ⟨length.symm, even⟩
  have remains : Remains (buffer.take rest.stop) rest := .inl length.symm
  have values := @AttrIter.next_value order address _ rest left
  have cases := @AttrIter.next_cases order (buffer.take rest.stop) address rest remains
  rw [AttrIter.next_take, bytes_take (Nat.le_refl _)] at values
  rw [AttrIter.next_take] at cases
  rcases values with ends | ⟨attr, behind, gives, isNext, behindLeft, less⟩
  · exact .inl ends
  · refine .inr ⟨attr, behind, gives, ?_⟩
    rcases cases with
      ends | ⟨also, _, alsoBehind, alsoGives, -, payloadInside, isStart, remainsBehind, -, -⟩
    · rw [gives] at ends
      cases ends
    · rw [gives] at alsoGives
      cases alsoGives
      rw [length] at payloadInside
      have behindInside : behind.stop ≤ rest.stop := by
        rcases remainsBehind with isStop | isEmpty
        · rw [isStop, length]
        · rw [isEmpty]
          exact Nat.zero_le _
      have isPosition : position (buffer.take rest.stop) rest = rest.start := by
        rw [position, length, Slice.stop]
        omega
      have evenStart : (address + rest.start) % 2 = 0 :=
        even.resolve_left fun nothing => absurd less (by omega)
      rw [bytes_take payloadInside, bytes_take behindInside] at isNext
      refine ⟨isNext, ⟨Nat.le_trans payloadInside inside, .inr ?_⟩,
        ⟨Nat.le_trans behindInside inside, behindLeft.imp_right And.right⟩, less⟩
      rw [isStart, isPosition, NLA_HDRLEN]
      omega

/-- The attributes of an aligned slice are those of its bytes, and their payloads are
aligned slices again. -/
theorem AttrIter.values_aligned {rest last : Slice} {attrs : List (Nat × Slice)}
    (drains : Drains (AttrIter.next order address buffer) rest attrs last)
    (aligned : AlignedIn address buffer rest) :
    attrs.map (fun attr => (attr.1, attr.2.bytes buffer)) = attrIter order (rest.bytes buffer) ∧
      ∀ attr ∈ attrs, AlignedIn address buffer attr.2 := by
  induction drains with
  | done ends =>
      rcases AttrIter.next_aligned aligned with ⟨-, none⟩ | ⟨attr, behind, gives, -⟩
      · exact ⟨(attrIter_of_none none).symm, nofun⟩
      · rw [gives] at ends
        cases ends
  | item yields rest ih =>
      rcases AttrIter.next_aligned aligned with
        ⟨ends, -⟩ | ⟨attr, behind, gives, isNext, payloadAligned, behindAligned, -⟩
      · rw [ends] at yields
        cases yields
      · rw [gives] at yields
        cases yields
        obtain ⟨isIter, restAligned⟩ := ih behindAligned
        refine ⟨?_, forall_mem_cons.mpr ⟨payloadAligned, restAligned⟩⟩
        rw [attrIter_of_next isNext, map_cons, isIter]

/-- The iterator comes to its end on an aligned slice, after fewer calls than it has bytes. -/
theorem AttrIter.exists_drains_aligned {rest : Slice} (aligned : AlignedIn address buffer rest) :
    ∃ attrs last, Drains (AttrIter.next order address buffer) rest attrs last ∧
      attrs.length ≤ rest.len := by
  apply @exists_drains _ _ _ _ (AlignedIn address buffer) Slice.len _ aligned
  intro rest aligned
  rcases @AttrIter.next_aligned order address buffer rest aligned with
    ⟨ends, -⟩ | ⟨attr, behind, gives, -, -, behindAligned, less⟩
  · exact .inl ends
  · exact .inr ⟨_, _, gives, behindAligned, less⟩

end Slices

/-- An attribute without payload that is marked as nested. -/
def nestedAttr : List UInt8 :=
  [4, 0, 1, 0x80]

/-- The flag of a nested attribute is not written again. -/
theorem not_safe_nested : ¬ AttrIter.Safe .little 0 nestedAttr Eq := by
  rintro ⟨attrs, types, last, covered, drains, -, same, -, padded⟩
  have yielded := drains 5 (by decide)
  have isDrain : drain (AttrIter.next .little 0 nestedAttr) 5 (whole nestedAttr) =
      some ([(1, { start := 4, len := 0 })], empty) := by
    decide
  rw [isDrain] at yielded
  obtain ⟨rfl, -⟩ := Prod.mk.inj (Option.some.inj yielded)
  obtain ⟨attrType, types, ⟨-, rfl⟩, none, rfl⟩ := forall₂_cons_left_iff.mp same
  obtain rfl := forall₂_nil_left_iff.mp none
  have front : ∀ behind : List UInt8, nestedAttr.take covered ≠ [4, 0, 1, 0] ++ behind := by
    intro behind isTaken
    have isPrefix := isTaken ▸ take_prefix covered nestedAttr
    exact absurd ((prefix_append _ behind).trans isPrefix) (by decide)
  generalize nestedAttr.take covered = taken at padded front
  cases padded with
  | last room => exact front _ rfl
  | cons full rest => exact front _ (List.append_assoc _ _ _)

end Nlink.Netlink
