import Nlink.NetlinkAttrTree
import Nlink.NetlinkDump

namespace Nlink.Netlink

open Foundation List

/-!
# Replies

The kernel replies to a request with an error message that carries the
request's seq.  Its code is zero if the request succeeded.
-/

def okMessages (order : ByteOrder) (data : Datagram) : List Message :=
  (messageIter order data).filterMap Except.toOption

variable {order : ByteOrder}

/-- A well-formed datagram is read without an error. -/
theorem messageIter_eq_map {data : Datagram} (wellFormed : WellFormed order data) :
    messageIter order data = (okMessages order data).map .ok := by
  rw [WellFormed] at wellFormed
  rw [okMessages]
  generalize messageIter order data = results at wellFormed ⊢
  induction results with
  | nil => rfl
  | cons result rest ih =>
      have later := ih fun other member => wellFormed other (mem_cons_of_mem _ member)
      cases result with
      | ok message => exact congrArg (Except.ok message :: ·) later
      | error error =>
          have isOk := wellFormed _ (mem_cons_self ..)
          cases isOk

/-- The error that a message reports, or an acknowledgement. -/
inductive Reply (order : ByteOrder) : Message → Option Error → Prop
  | ack (message : Message) (err : NlMsgError) (isError : message.1.isError = true)
      (parsed : NlMsgError.fromBytes order message.2 = .ok err) (acknowledges : err.isAck = true) :
      Reply order message none
  | rejects (message : Message) (err : NlMsgError) (isError : message.1.isError = true)
      (parsed : NlMsgError.fromBytes order message.2 = .ok err) (nonZero : err.isAck = false) :
      Reply order message (some (err.intoError order message.2))

theorem not_rejects_of_ack {message : Message} (ack : Reply order message none) (error : Error) :
    ¬ Reply order message (some error) := by
  obtain ⟨ackErr, isAckError, ackParsed, acknowledges⟩ := ack
  intro rejects
  obtain _ | ⟨err, isError, parsed, nonZero⟩ := rejects
  rw [ackParsed, Except.ok.injEq] at parsed
  rw [parsed, nonZero] at acknowledges
  exact Bool.false_ne_true acknowledges

/-- The header of a reply without extended acknowledgement. -/
def replyHeader (seq : Nat) : NlMsgHdr where
  nlmsgLen := 36
  nlmsgType := NlMsgType.ERROR
  nlmsgFlags := 0
  nlmsgSeq := seq
  nlmsgPid := 0

def requestHeader (seq : Nat) : NlMsgHdr where
  nlmsgLen := 16
  nlmsgType := 0
  nlmsgFlags := 0
  nlmsgSeq := seq
  nlmsgPid := 0

/-- The payload of a reply: its code, and the header of the request. -/
def replyPayload (order : ByteOrder) (code seq : Nat) : List UInt8 :=
  order.toBytes 4 code ++ (requestHeader seq).asBytes order

def replyDatagram (order : ByteOrder) (code seq : Nat) : Datagram :=
  (replyHeader seq).asBytes order ++ replyPayload order code seq

/-- A message header takes sixteen bytes. -/
theorem asBytes_length (order : ByteOrder) (header : NlMsgHdr) :
    (header.asBytes order).length = 16 := by
  simp [NlMsgHdr.asBytes]

theorem fromBytes_asBytes (order : ByteOrder) (header : NlMsgHdr) (rest : List UInt8)
    (lenFits : header.nlmsgLen < 256 ^ 4) (typeFits : header.nlmsgType < 256 ^ 2)
    (flagsFit : header.nlmsgFlags < 256 ^ 2) (seqFits : header.nlmsgSeq < 256 ^ 4)
    (pidFits : header.nlmsgPid < 256 ^ 4) :
    NlMsgHdr.fromBytes order (header.asBytes order ++ rest) = .ok header := by
  have long : ¬ (header.asBytes order ++ rest).length < 16 := by simp [asBytes_length]
  rw [NlMsgHdr.fromBytes, if_neg long]
  simp [NlMsgHdr.asBytes, drop_append, drop_of_length_le, order.ofBytes_toBytes lenFits,
    order.ofBytes_toBytes typeFits, order.ofBytes_toBytes flagsFit, order.ofBytes_toBytes seqFits,
    order.ofBytes_toBytes pidFits]

theorem nextMessage_asBytes {header : NlMsgHdr} {payload : List UInt8} (rest : List UInt8)
    (read : ∀ behind, NlMsgHdr.fromBytes order (header.asBytes order ++ behind) = .ok header)
    (length : header.nlmsgLen = NLMSG_HDRLEN + payload.length) (aligned : 4 ∣ payload.length) :
    nextMessage order (header.asBytes order ++ (payload ++ rest)) =
      some (.ok (header, payload), rest) := by
  have headerLength := asBytes_length order header
  have messageLength : (header.asBytes order ++ payload).length = header.nlmsgLen := by
    rw [length_append, headerLength, length, NLMSG_HDRLEN]
  have whole : (header.asBytes order ++ (payload ++ rest)).length =
        header.nlmsgLen + rest.length := by
    rw [← List.append_assoc, length_append, messageLength]
  have unpadded : nlmsgAlign header.nlmsgLen = header.nlmsgLen := by
    rw [length, NLMSG_HDRLEN, nlmsgAlign]
    omega
  have long : ¬ (header.asBytes order ++ (payload ++ rest)).length < NLMSG_HDRLEN := by
    rw [whole, length]
    omega
  have fits :
      ¬ (header.nlmsgLen < NLMSG_HDRLEN ∨ (header.asBytes order ++ (payload ++ rest)).length <
          header.nlmsgLen) := by
    rw [whole, length]
    omega
  have front :
      ((header.asBytes order ++ (payload ++ rest)).take
        header.nlmsgLen).drop NLMSG_HDRLEN = payload := by
    rw [← List.append_assoc, take_left' messageLength]
    exact drop_left' headerLength
  have behind : (header.asBytes order ++ (payload ++ rest)).drop
        (nlmsgAlign header.nlmsgLen) = rest := by
    rw [unpadded, ← List.append_assoc, drop_left' messageLength]
  rw [nextMessage, if_neg long, read]
  refine (if_neg fits).trans ?_
  rw [front, behind]

theorem messageIter_asBytes {header : NlMsgHdr} {payload : List UInt8}
    (read : ∀ behind, NlMsgHdr.fromBytes order (header.asBytes order ++ behind) = .ok header)
    (length : header.nlmsgLen = NLMSG_HDRLEN + payload.length) (aligned : 4 ∣ payload.length) :
    messageIter order (header.asBytes order ++ payload) = [.ok (header, payload)] := by
  have first := nextMessage_asBytes [] read length aligned
  rw [List.append_nil] at first
  have done : ∀ fuel, messagesFrom order fuel [] = [] := by
    intro fuel
    cases fuel <;> rfl
  have positive : 0 < (header.asBytes order ++ payload).length := by
    rw [length_append, asBytes_length]
    omega
  obtain ⟨fuel, isSucc⟩ := Nat.exists_eq_succ_of_ne_zero (Nat.ne_of_gt positive)
  rw [messageIter, isSucc, messagesFrom, first]
  exact congrArg (List.cons _) (done fuel)

variable {seq : Nat}

/-- A reply is read back as its one message. -/
theorem messageIter_replyDatagram (order : ByteOrder) (code : Nat) (fits : seq < 2 ^ 32) :
    messageIter order (replyDatagram order code seq) =
      [.ok (replyHeader seq, replyPayload order code seq)] := by
  have payloadLength : (replyPayload order code seq).length = 20 := by
    simp [replyPayload, asBytes_length]
  refine messageIter_asBytes (fun behind => ?_) ?_ ?_
  · exact fromBytes_asBytes order (replyHeader seq) behind
      (by simp [replyHeader]) (by simp [replyHeader, NlMsgType.ERROR])
      (by simp [replyHeader]) fits (by simp [replyHeader])
  · rw [payloadLength]
    rfl
  · rw [payloadLength]
    decide

/-- The outcome is read back from a reply. -/
theorem fromBytes_replyPayload (order : ByteOrder) {code seq : Nat} (codeFits : code < 2 ^ 32)
    (fits : seq < 2 ^ 32) :
    NlMsgError.fromBytes order (replyPayload order code seq) = .ok
        { errno := (BitVec.ofNat 32 code).toInt
          msg := requestHeader seq } := by
  have long : ¬ (replyPayload order code seq).length < 20 := by simp [replyPayload, asBytes_length]
  have fixedLength : (order.toBytes 4 code).length = 4 := order.toBytes_length 4 code
  have request : NlMsgHdr.fromBytes order ((requestHeader seq).asBytes order ++ []) =
        .ok (requestHeader seq) :=
    fromBytes_asBytes order (requestHeader seq) [] (by simp [requestHeader])
      (by simp [requestHeader]) (by simp [requestHeader]) fits
      (by simp [requestHeader])
  have behind : (replyPayload order code seq).drop 4 = (requestHeader seq).asBytes order := by
    rw [replyPayload, drop_append, fixedLength, drop_of_length_le (Nat.le_of_eq fixedLength)]
    rfl
  have front : (replyPayload order code seq).take 4 = order.toBytes 4 code := by
    rw [replyPayload, take_append, fixedLength, take_of_length_le (Nat.le_of_eq fixedLength)]
    simp
  rw [List.append_nil] at request
  rw [NlMsgError.fromBytes, if_neg long, behind, request, front, order.ofBytes_toBytes codeFits]
  rfl

def replyMessage (order : ByteOrder) (code seq : Nat) : Message :=
  (replyHeader seq, replyPayload order code seq)

theorem okMessages_replyDatagram (order : ByteOrder) (code : Nat) (fits : seq < 2 ^ 32) :
    okMessages order (replyDatagram order code seq) = [replyMessage order code seq] := by
  rw [okMessages, messageIter_replyDatagram order code fits]
  rfl

theorem reply_zero (order : ByteOrder) (fits : seq < 2 ^ 32) :
    Reply order (replyMessage order 0 seq) none :=
  .ack _ _ rfl (fromBytes_replyPayload order (by decide) fits) rfl

theorem reply_nonzero (order : ByteOrder) (fits : seq < 2 ^ 32) :
    ∃ error, Reply order (replyMessage order (2 ^ 32 - 1) seq) (some error) :=
  ⟨_, .rejects _ _ rfl (fromBytes_replyPayload order (by decide) fits) rfl⟩

open Nftables

/-!
## Whole messages, written and read

A message is built from a header, a fixed body and a tree of attributes.  What
the iterators read off a buffer of such messages is what they were built from,
as long as the length of each message fits the length field of its header.
-/

namespace MessageBuilder

variable (order : ByteOrder)

/-- A message that begins with a given header. -/
def withHeader (header : NlMsgHdr) : MessageBuilder where
  buf := header.asBytes order

end MessageBuilder

/-- What a message is built from.  The header's fields fit their widths; its
length is not known yet. -/
structure MessagePlan (order : ByteOrder) where
  header : NlMsgHdr
  body : List UInt8
  attrs : AttrTree
  typeFits : header.nlmsgType < 256 ^ 2
  flagsFit : header.nlmsgFlags < 256 ^ 2
  seqFits : header.nlmsgSeq < 256 ^ 4
  pidFits : header.nlmsgPid < 256 ^ 4
  bodyAligned : 4 ∣ body.length
  attrsFit : (attrs.attrs order).Fits order

namespace MessagePlan

variable {order : ByteOrder}

/-- The types and payload bytes of the message's attributes. -/
def wire (plan : MessagePlan order) : Attrs :=
  plan.attrs.attrs order

variable (plan : MessagePlan order)

theorem wire_fits : plan.wire.Fits order :=
  plan.attrsFit

/-- Build a message the way a request is: the sequence number and the port are
set when everything has been appended. -/
def build (plan : MessagePlan order) : List UInt8 :=
  let started :=
    (MessageBuilder.new order plan.header.nlmsgType plan.header.nlmsgFlags).appendBytes plan.body
  let written := plan.attrs.write order started
  ((written.setSeq order plan.header.nlmsgSeq).setPid order plan.header.nlmsgPid).finish order

def sentHeader (plan : MessagePlan order) : NlMsgHdr :=
  { plan.header with nlmsgLen := plan.build.length }

/-- The bytes of the message behind its header. -/
def payload (plan : MessagePlan order) : List UInt8 :=
  plan.build.drop NLMSG_HDRLEN

/-- The body and the attributes as bytes. -/
def content (plan : MessagePlan order) : List UInt8 :=
  plan.body ++ plan.wire.encode order

theorem dvd_length_content : 4 ∣ plan.content.length := by
  rw [content, length_append]
  exact Nat.dvd_add plan.bodyAligned (Attrs.dvd_length_encode order _)

theorem write_eq (header : NlMsgHdr) : plan.attrs.write order
        (MessageBuilder.appendBytes (MessageBuilder.withHeader order header) plan.body) =
      { buf := header.asBytes order ++ plan.content } := by
  have started :
      (MessageBuilder.appendBytes (MessageBuilder.withHeader order header) plan.body).buf =
        header.asBytes order ++ plan.body := by
    have aligned : 4 ∣ (header.asBytes order ++ plan.body).length := by
      rw [length_append, asBytes_length]
      exact Nat.dvd_add (by decide) plan.bodyAligned
    change header.asBytes order ++ plan.body ++ padding _ = _
    rw [MessageBuilder.withHeader, padding_of_dvd aligned, List.append_nil]
  have startedAligned :
      4 ∣ (MessageBuilder.appendBytes
        (MessageBuilder.withHeader order header) plan.body).buf.length := by
    rw [started, length_append, asBytes_length]
    exact Nat.dvd_add (by decide) plan.bodyAligned
  refine congrArg MessageBuilder.mk ?_
  rw [(plan.attrs.appends_write order).appended _ startedAligned, started,
    content, wire, List.append_assoc]

theorem finish_asBytes (header : NlMsgHdr) (content : List UInt8) :
    MessageBuilder.finish order { buf := header.asBytes order ++ content } = NlMsgHdr.asBytes order
          { header with nlmsgLen := NLMSG_HDRLEN + content.length } ++
        content := by
  have length : (header.asBytes order ++ content).length = NLMSG_HDRLEN + content.length := by
    rw [length_append, asBytes_length, NLMSG_HDRLEN]
  rw [MessageBuilder.finish, length]
  simp [NlMsgHdr.asBytes]

theorem setSeq_asBytes (header : NlMsgHdr) (content : List UInt8) (seq : Nat) :
    MessageBuilder.setSeq order { buf := header.asBytes order ++ content } seq =
      { buf := NlMsgHdr.asBytes order { header with nlmsgSeq := seq } ++ content } := by
  simp [MessageBuilder.setSeq, NlMsgHdr.asBytes, drop_append,
    take_append, drop_of_length_le, take_of_length_le]

theorem setPid_asBytes (header : NlMsgHdr) (content : List UInt8) (pid : Nat) :
    MessageBuilder.setPid order { buf := header.asBytes order ++ content } pid =
      { buf := NlMsgHdr.asBytes order { header with nlmsgPid := pid } ++ content } := by
  simp [MessageBuilder.setPid, NlMsgHdr.asBytes, drop_append,
    take_append, drop_of_length_le, take_of_length_le]

theorem build_eq : plan.build = NlMsgHdr.asBytes order
          { plan.header with nlmsgLen := NLMSG_HDRLEN + plan.content.length } ++
        plan.content := by
  have written := plan.write_eq (NlMsgHdr.new plan.header.nlmsgType plan.header.nlmsgFlags)
  change MessageBuilder.finish order
    (MessageBuilder.setPid order (MessageBuilder.setSeq order
      (plan.attrs.write order (MessageBuilder.appendBytes
        (MessageBuilder.withHeader order _) plan.body)) _) _) = _
  rw [written, setSeq_asBytes, setPid_asBytes, finish_asBytes]
  rfl

theorem build_length : plan.build.length = NLMSG_HDRLEN + plan.content.length := by
  rw [build_eq, length_append, asBytes_length, NLMSG_HDRLEN]

theorem build_eq_sentHeader : plan.build = plan.sentHeader.asBytes order ++ plan.content := by
  rw [sentHeader, build_length]
  exact plan.build_eq

theorem payload_eq : plan.payload = plan.content := by
  rw [payload, build_eq_sentHeader]
  exact drop_left' (asBytes_length order _)

theorem drop_payload : plan.payload.drop plan.body.length = plan.wire.encode order := by
  rw [payload_eq, content, drop_left]

end MessagePlan

theorem fromBytes_len_lt {order : ByteOrder} {data : List UInt8} {header : NlMsgHdr}
    (read : NlMsgHdr.fromBytes order data = .ok header) : header.nlmsgLen < 2 ^ 32 := by
  rw [NlMsgHdr.fromBytes] at read
  split at read
  · cases read
  · rename_i long
    have four : (data.take 4).length = 4 := by
      rw [length_take]
      omega
    have bound := order.ofBytes_lt (data.take 4)
    rw [four] at bound
    cases read
    exact bound

/-- What was built is what is read: the length of each message is in its
header, the iterator yields each message and nothing else, and the body and
the attributes are found in the payload. -/
structure RoundTrips {order : ByteOrder} (plans : List (MessagePlan order)) : Prop where
  aligned : ∀ plan ∈ plans, 4 ∣ plan.build.length
  headers : ∀ plan ∈ plans, NlMsgHdr.fromBytes order plan.build = .ok plan.sentHeader
  messages : messageIter order (plans.flatMap MessagePlan.build) =
      plans.map fun plan => .ok (plan.sentHeader, plan.payload)
  bodies : ∀ plan ∈ plans, plan.payload.take plan.body.length = plan.body
  trees : ∀ plan ∈ plans, plan.wire.blank.read order
        (attrIter order (plan.payload.drop plan.body.length)) =
      some plan.wire

namespace RoundTrips

variable {order : ByteOrder}

theorem read_header {plan : MessagePlan order} (short : plan.build.length < 2 ^ 32)
    (behind : List UInt8) :
    NlMsgHdr.fromBytes order (plan.sentHeader.asBytes order ++ behind) = .ok plan.sentHeader :=
  fromBytes_asBytes order plan.sentHeader behind short plan.typeFits
    plan.flagsFit plan.seqFits plan.pidFits

theorem messagesFrom_build {plans : List (MessagePlan order)}
    (short : ∀ plan ∈ plans, plan.build.length < 2 ^ 32) {fuel : Nat}
    (enough : plans.length ≤ fuel) :
    messagesFrom order fuel (plans.flatMap MessagePlan.build) =
      plans.map fun plan => .ok (plan.sentHeader, plan.payload) := by
  induction plans generalizing fuel with
  | nil => cases fuel <;> rfl
  | cons plan plans ih =>
      have shortLater : ∀ other ∈ plans, other.build.length < 2 ^ 32 :=
        fun other member => short other (mem_cons_of_mem _ member)
      have first :=
        nextMessage_asBytes (plans.flatMap MessagePlan.build)
          (read_header (short plan (mem_cons_self ..)))
          plan.build_length plan.dvd_length_content
      cases fuel with
      | zero => cases enough
      | succ fuel =>
          rw [flatMap_cons, plan.build_eq_sentHeader, List.append_assoc,
            messagesFrom, first, map_cons, plan.payload_eq]
          exact congrArg (List.cons _) (ih shortLater (Nat.le_of_succ_le_succ enough))

theorem length_le (plans : List (MessagePlan order)) :
    plans.length ≤ (plans.flatMap MessagePlan.build).length := by
  induction plans with
  | nil => exact Nat.le_refl 0
  | cons plan plans ih =>
      rw [flatMap_cons, length_append, plan.build_length, length_cons, NLMSG_HDRLEN]
      omega

end RoundTrips

/-- Messages survive the round trip exactly when the length of each fits the
32 bits that the header has for it. -/
theorem roundTrips_iff {order : ByteOrder} (plans : List (MessagePlan order)) :
    RoundTrips plans ↔ ∀ plan ∈ plans, plan.build.length < 2 ^ 32 := by
  constructor
  · intro roundTrips plan member
    exact fromBytes_len_lt (roundTrips.headers plan member)
  · intro short
    exact
      { aligned := fun plan _ => plan.build_length ▸ Nat.dvd_add (by decide) plan.dvd_length_content
        headers := fun plan member =>
          plan.build_eq_sentHeader ▸ RoundTrips.read_header (short plan member) plan.content
        messages := RoundTrips.messagesFrom_build short (RoundTrips.length_le plans)
        bodies := fun plan _ => by rw [plan.payload_eq, MessagePlan.content, take_left]
        trees := fun plan _ => by
          rw [plan.drop_payload, Attrs.attrIter_encode order plan.wire_fits,
            Attrs.read_level order plan.wire_fits] }

/-- A message with one attribute of 65531 bytes again and again. -/
def longAttrs : Nat → AttrTree
  | 0 => .nil
  | count + 1 => .attr 1 (.bytes (List.replicate 65531 0)) (longAttrs count)

variable (count : Nat)

theorem longAttrs_fits : ((longAttrs count).attrs .little).Fits .little := by
  induction count with
  | zero => trivial
  | succ count ih =>
      refine ⟨by decide, ?_, ih⟩
      rw [AttrValue.payload, length_replicate, NLA_HDRLEN]

theorem longAttrs_length : (((longAttrs count).attrs .little).encode .little).length =
      65536 * count := by
  induction count with
  | zero => rfl
  | succ count ih =>
      rw [longAttrs, AttrTree.attrs, Attrs.encode, length_append, Attrs.attrBytes_length,
        AttrValue.payload, length_replicate, ih, nlaAlign]
      omega

/-- A message of many attributes, each of the greatest length. -/
def longPlan (count : Nat) : MessagePlan .little where
  header := NlMsgHdr.new 16 NLM_F_REQUEST
  body := []
  attrs := longAttrs count
  typeFits := by decide
  flagsFit := by decide
  seqFits := by decide
  pidFits := by decide
  bodyAligned := by decide
  attrsFit := longAttrs_fits count

theorem longPlan_length : (longPlan count).build.length = 16 + 65536 * count := by
  have content : (longPlan count).content.length = 65536 * count := longAttrs_length count
  rw [MessagePlan.build_length, content, NLMSG_HDRLEN]

/-- With 65536 such attributes the length is written without its top bit. -/
theorem not_roundTrips_longPlan : ¬ RoundTrips [longPlan 65536] := by
  intro roundTrips
  have short := fromBytes_len_lt (roundTrips.headers (longPlan 65536) (mem_singleton.mpr rfl))
  rw [MessagePlan.sentHeader] at short
  simp only [longPlan_length] at short
  omega

end Nlink.Netlink
