import Nlink.Foundation.FixedLayout

namespace Nlink.Netlink

open Foundation List

/-!
# Netlink attributes

An attribute is a four-byte header, its length and its type, and a payload that
is padded to a multiple of four bytes.  Header fields are in the host's byte
order.
-/

/-- Round a length up to a multiple of four. -/
def nlaAlign (len : Nat) : Nat :=
  (len + 3) / 4 * 4

def NLA_HDRLEN : Nat := 4

def NLA_F_NESTED : Nat := 0x8000
def NLA_F_NET_BYTEORDER : Nat := 0x4000

/-- The header of an attribute. -/
structure NlAttr where
  nlaLen : Nat
  nlaType : Nat

namespace NlAttr

/-- A header for a payload of a given length; the total saturates. -/
def new (attrType dataLen : Nat) : NlAttr where
  nlaLen := min (NLA_HDRLEN + dataLen) 65535
  nlaType := attrType

/-- The type without its two flag bits. -/
def kind (attr : NlAttr) : Nat :=
  attr.nlaType % NLA_F_NET_BYTEORDER

def asBytes (order : ByteOrder) (attr : NlAttr) : List UInt8 :=
  order.toBytes 2 attr.nlaLen ++ order.toBytes 2 attr.nlaType

/-- Read a header off the front of the bytes. -/
def fromBytes (order : ByteOrder) : List UInt8 → Option NlAttr
  | l0 :: l1 :: t0 :: t1 :: _ =>
      some
        { nlaLen := order.ofBytes [l0, l1]
          nlaType := order.ofBytes [t0, t1] }
  | _ => none

end NlAttr

/-- The next attribute and the bytes behind it; a bad length ends the walk. -/
def nextAttr (order : ByteOrder) (data : List UInt8) :
    Option ((Nat × List UInt8) × List UInt8) := do
  let attr ← NlAttr.fromBytes order data
  if attr.nlaLen < NLA_HDRLEN ∨ data.length < attr.nlaLen then
    none
  else
    some ((attr.kind, (data.take attr.nlaLen).drop NLA_HDRLEN), data.drop (nlaAlign attr.nlaLen))

/-- At most `fuel` attributes off the front of the bytes. -/
def attrsFrom (order : ByteOrder) : Nat → List UInt8 → List (Nat × List UInt8)
  | 0, _ => []
  | fuel + 1, data =>
      match nextAttr order data with
      | none => []
      | some (attr, rest) => attr :: attrsFrom order fuel rest

/-- The attributes of a buffer, as `AttrIter` yields them. -/
def attrIter (order : ByteOrder) (data : List UInt8) : List (Nat × List UInt8) :=
  attrsFrom order data.length data

variable {order : ByteOrder}

variable {data rest : List UInt8} {attr : Nat × List UInt8}

/-- An attribute is read where its length takes in its header and stays in the buffer. -/
theorem nextAttr_eq_some
    (next : nextAttr order data = some (attr, rest)) :
    ∃ found, NlAttr.fromBytes order data = some found ∧ NLA_HDRLEN ≤ found.nlaLen ∧
      found.nlaLen ≤ data.length ∧
      attr = (found.kind, (data.take found.nlaLen).drop NLA_HDRLEN) ∧
      rest = data.drop (nlaAlign found.nlaLen) := by
  rw [nextAttr] at next
  cases header : NlAttr.fromBytes order data with
  | none =>
      rw [header] at next
      cases next
  | some found =>
      rw [header] at next
      change (if _ then none else _) = _ at next
      split at next
      · cases next
      · rename_i lengths
        obtain ⟨longEnough, inside⟩ := not_or.mp lengths
        cases next
        exact ⟨found, rfl, Nat.le_of_not_lt longEnough, Nat.le_of_not_lt inside, rfl, rfl⟩

/-- Each step of the iterator takes bytes off. -/
theorem nextAttr_shrinks
    (next : nextAttr order data = some (attr, rest)) : rest.length < data.length := by
  obtain ⟨found, _, longEnough, inside, _, rfl⟩ := nextAttr_eq_some next
  rw [NLA_HDRLEN] at longEnough
  rw [length_drop, nlaAlign]
  omega

theorem attrsFrom_eq {fuel other : Nat} {data : List UInt8} (enough : data.length ≤ fuel)
    (otherEnough : data.length ≤ other) :
    attrsFrom order fuel data = attrsFrom order other data := by
  induction fuel generalizing data other with
  | zero =>
      rw [eq_nil_of_length_eq_zero (Nat.le_zero.mp enough)]
      cases other <;> rfl
  | succ fuel ih =>
      cases next : nextAttr order data with
      | none => cases other <;> simp [attrsFrom, next]
      | some step =>
          obtain ⟨attr, rest⟩ := step
          have shrinks := nextAttr_shrinks next
          obtain ⟨less, rfl⟩ :=
            Nat.exists_eq_succ_of_ne_zero
              (Nat.ne_zero_of_lt (Nat.lt_of_lt_of_le shrinks otherEnough))
          rw [attrsFrom, attrsFrom, next]
          exact congrArg (List.cons attr) (ih (by omega) (by omega))

/-- One step of the iterator. -/
theorem attrIter_of_next
    (next : nextAttr order data = some (attr, rest)) :
    attrIter order data = attr :: attrIter order rest := by
  have shrinks := nextAttr_shrinks next
  obtain ⟨less, isSucc⟩ := Nat.exists_eq_succ_of_ne_zero (Nat.ne_zero_of_lt shrinks)
  rw [attrIter, isSucc, attrsFrom, next]
  exact congrArg (List.cons attr) (attrsFrom_eq (by omega) (Nat.le_refl _))

/-- The iterator ends where no attribute is left. -/
theorem attrIter_of_none {data : List UInt8} (next : nextAttr order data = none) :
    attrIter order data = [] := by
  cases length : data.length <;> simp [attrIter, attrsFrom, next, length]

/-!
## Netlink messages

A datagram is a sequence of messages, each a sixteen-byte header and a payload
padded to a multiple of four bytes.  Header fields are in the host's byte
order.
-/

/-- The errors that receiving and parsing give.  The operating system's text
for an error number is left out. -/
inductive Error where
  | truncated (expected actual : Nat)
  | invalidMessage (text : String)
  | kernel (errno : Nat) (extAck : Option (List UInt8)) (extAckOffset : Option Nat)
  | dumpInterrupted
  | frameTruncated (received bufferSize : Nat)
  deriving DecidableEq

def ENOENT : Nat := 2
def EBUSY : Nat := 16
def EEXIST : Nat := 17
def ENODEV : Nat := 19
def EINVAL : Nat := 22
def EOPNOTSUPP : Nat := 95

/-- Round a length up to a multiple of four. -/
def nlmsgAlign (len : Nat) : Nat :=
  (len + 3) / 4 * 4

def NLMSG_HDRLEN : Nat := 16
def GENL_HDRLEN : Nat := 4

def NLM_F_REQUEST : Nat := 0x01
def NLM_F_MULTI : Nat := 0x02
def NLM_F_ACK : Nat := 0x04
def NLM_F_DUMP_INTR : Nat := 0x10
def NLM_F_REPLACE : Nat := 0x100
def NLM_F_EXCL : Nat := 0x200
def NLM_F_CREATE : Nat := 0x400
def NLM_F_APPEND : Nat := 0x800

/-- The standard message types. -/
def NlMsgType.ERROR : Nat := 2
def NlMsgType.DONE : Nat := 3

/-- The header of a message. -/
structure NlMsgHdr where
  nlmsgLen : Nat
  nlmsgType : Nat
  nlmsgFlags : Nat
  nlmsgSeq : Nat
  nlmsgPid : Nat
  deriving DecidableEq

namespace NlMsgHdr

/-- Whether the message reports an error or an acknowledgement. -/
def isError (header : NlMsgHdr) : Bool :=
  header.nlmsgType == NlMsgType.ERROR

/-- Whether the message ends a dump. -/
def isDone (header : NlMsgHdr) : Bool :=
  header.nlmsgType == NlMsgType.DONE

/-- Whether the kernel says that the dump is inconsistent. -/
def isDumpInterrupted (header : NlMsgHdr) : Bool :=
  header.nlmsgFlags &&& NLM_F_DUMP_INTR != 0

def asBytes (order : ByteOrder) (header : NlMsgHdr) : List UInt8 :=
  order.toBytes 4 header.nlmsgLen ++ order.toBytes 2 header.nlmsgType ++
    order.toBytes 2 header.nlmsgFlags ++ order.toBytes 4 header.nlmsgSeq ++
    order.toBytes 4 header.nlmsgPid

/-- Read a header off the front of the bytes. -/
def fromBytes (order : ByteOrder) (data : List UInt8) : Except Error NlMsgHdr :=
  if data.length < 16 then
    .error (.truncated 16 data.length)
  else
    .ok
      { nlmsgLen := order.ofBytes (data.take 4)
        nlmsgType := order.ofBytes ((data.drop 4).take 2)
        nlmsgFlags := order.ofBytes ((data.drop 6).take 2)
        nlmsgSeq := order.ofBytes ((data.drop 8).take 4)
        nlmsgPid := order.ofBytes ((data.drop 12).take 4) }

end NlMsgHdr

/-- A message as the iterator yields it: its header and its payload. -/
abbrev Message := NlMsgHdr × List UInt8

/-- `MessageIter::next`: the next message, or an error that exhausts the
iterator, and the bytes behind it. -/
def nextMessage (order : ByteOrder) (data : List UInt8) :
    Option (Except Error Message × List UInt8) :=
  if data.length < NLMSG_HDRLEN then
    none
  else
    match NlMsgHdr.fromBytes order data with
    | .error error => some (.error error, [])
    | .ok header =>
        if header.nlmsgLen < NLMSG_HDRLEN ∨ data.length < header.nlmsgLen then
          some
            (.error (.invalidMessage ("invalid message length: " ++ toString header.nlmsgLen)), [])
        else
          some
            (.ok (header, (data.take header.nlmsgLen).drop NLMSG_HDRLEN),
              data.drop (nlmsgAlign header.nlmsgLen))

/-- At most `fuel` messages off the front of the bytes. -/
def messagesFrom (order : ByteOrder) : Nat → List UInt8 → List (Except Error Message)
  | 0, _ => []
  | fuel + 1, data =>
      match nextMessage order data with
      | none => []
      | some (message, rest) => message :: messagesFrom order fuel rest

/-- The messages of a datagram, as `MessageIter` yields them. -/
def messageIter (order : ByteOrder) (data : List UInt8) : List (Except Error Message) :=
  messagesFrom order data.length data

/-- The payload of an error message; a zero code acknowledges. -/
structure NlMsgError where
  errno : Int
  msg : NlMsgHdr

/-- The types of the extended acknowledgement's attributes. -/
def nlmsgerrAttr.MSG : Nat := 1
def nlmsgerrAttr.OFFS : Nat := 2

/-- The extended acknowledgement: a message's bytes and an offset. -/
structure ParsedExtAck where
  message : Option (List UInt8)
  offset : Option Nat

namespace NlMsgError

/-- Read the payload; it holds the code and the request's header. -/
def fromBytes (order : ByteOrder) (data : List UInt8) : Except Error NlMsgError :=
  if data.length < 20 then
    .error (.truncated 20 data.length)
  else do
    let msg ← NlMsgHdr.fromBytes order (data.drop 4)
    return { errno := (BitVec.ofNat 32 (order.ofBytes (data.take 4))).toInt
             msg := msg }

/-- Whether the message acknowledges a request. -/
def isAck (error : NlMsgError) : Bool :=
  error.errno == 0

/-- One attribute of the extended acknowledgement; later ones win. -/
def ParsedExtAck.add (order : ByteOrder) (ack : ParsedExtAck) (attr : Nat × List UInt8) :
    ParsedExtAck :=
  if attr.1 = nlmsgerrAttr.MSG then
    let trimmed := attr.2.takeWhile (· != 0)
    if trimmed.isEmpty then ack else { ack with message := some trimmed }
  else if attr.1 = nlmsgerrAttr.OFFS ∧ attr.2.length ≥ 4 then
    { ack with offset := some (order.ofBytes (attr.2.take 4)) }
  else
    ack

/-- The extended acknowledgement behind the error's fixed part. -/
def parsedExtAck (order : ByteOrder) (payload : List UInt8) : ParsedExtAck :=
  (attrIter order (payload.drop 20)).foldl (ParsedExtAck.add order)
    { message := none, offset := none }

def intoError (order : ByteOrder) (error : NlMsgError) (payload : List UInt8) : Error :=
  let ack := parsedExtAck order payload
  .kernel error.errno.natAbs ack.message ack.offset

end NlMsgError

/-!
## Building netlink messages

A builder appends attributes to a buffer that starts with a message header.  A
nested attribute is begun with a placeholder for its length, which is patched
when the nest ends.  Padding is counted from the start of the buffer, so what a
step appends does not depend on the buffer as long as its length is a multiple
of four.
-/

/-- A header for a message without payload. -/
def NlMsgHdr.new (msgType flags : Nat) : NlMsgHdr where
  nlmsgLen := NLMSG_HDRLEN
  nlmsgType := msgType
  nlmsgFlags := flags
  nlmsgSeq := 0
  nlmsgPid := 0

def asBytes (text : String) : List UInt8 :=
  text.toUTF8.data.toList

/-- A terminated text is read up to its NUL. -/
theorem takeWhile_terminated {bytes : List UInt8} (noNul : ∀ byte ∈ bytes, byte ≠ 0)
    (rest : List UInt8) : (bytes ++ 0 :: rest).takeWhile (· != 0) = bytes := by
  rw [takeWhile_append_of_pos fun byte member => bne_iff_ne.mpr (noNul byte member)]
  exact List.append_nil _

/-- A message under construction. -/
structure MessageBuilder where
  buf : List UInt8

/-- The zeros that pad a length to a multiple of four. -/
def padding (len : Nat) : List UInt8 :=
  List.replicate (nlaAlign len - len) 0

theorem dvd_nlaAlign (len : Nat) : 4 ∣ nlaAlign len :=
  ⟨(len + 3) / 4, Nat.mul_comm _ _⟩

theorem le_nlaAlign (len : Nat) : len ≤ nlaAlign len := by
  rw [nlaAlign]
  omega

theorem nlaAlign_of_dvd {len : Nat} (aligned : 4 ∣ len) : nlaAlign len = len := by
  obtain ⟨words, rfl⟩ := aligned
  rw [nlaAlign]
  omega

theorem padding_add {start : Nat} (aligned : 4 ∣ start) (len : Nat) :
    padding (start + len) = padding len := by
  obtain ⟨words, rfl⟩ := aligned
  rw [padding, padding, nlaAlign, nlaAlign]
  congr 1
  omega

theorem padding_of_dvd {len : Nat} (aligned : 4 ∣ len) : padding len = [] := by
  rw [padding, nlaAlign_of_dvd aligned, Nat.sub_self, replicate_zero]

theorem dvd_length_padding (bytes : List UInt8) : 4 ∣ (bytes ++ padding bytes.length).length := by
  rw [length_append, padding, length_replicate, Nat.add_sub_cancel' (le_nlaAlign _)]
  exact dvd_nlaAlign _

namespace MessageBuilder

variable (order : ByteOrder)

/-- A message with a header only. -/
def new (msgType flags : Nat) : MessageBuilder where
  buf := (NlMsgHdr.new msgType flags).asBytes order

def appendBytes (builder : MessageBuilder) (data : List UInt8) :
    MessageBuilder :=
  let buf := builder.buf ++ data
  { buf := buf ++ padding buf.length }

def appendAttr (builder : MessageBuilder) (attrType : Nat) (data : List UInt8) :
    MessageBuilder :=
  let buf := builder.buf ++ (NlAttr.new attrType data.length).asBytes order ++
    data
  { buf := buf ++ padding buf.length }

/-- Append a number in network byte order. -/
def appendAttrBe (builder : MessageBuilder) (width attrType value : Nat) :
    MessageBuilder :=
  builder.appendAttr order attrType (ByteOrder.big.toBytes width value)

def appendAttrU16Be (builder : MessageBuilder) (attrType value : Nat) :
    MessageBuilder :=
  builder.appendAttrBe order 2 attrType value

def appendAttrU32Be (builder : MessageBuilder) (attrType value : Nat) :
    MessageBuilder :=
  builder.appendAttrBe order 4 attrType value

def appendAttrU64Be (builder : MessageBuilder) (attrType value : Nat) :
    MessageBuilder :=
  builder.appendAttrBe order 8 attrType value

def appendAttrStr (builder : MessageBuilder) (attrType : Nat) (value : String) :
    MessageBuilder :=
  builder.appendAttr order attrType (asBytes value ++ [0])

/-- Begin a nested attribute; its length is not known yet. -/
def nestStart (builder : MessageBuilder) (attrType : Nat) : MessageBuilder where
  buf := builder.buf ++ (NlAttr.new (attrType ||| NLA_F_NESTED) 0).asBytes order

/-- End the nested attribute that began at an offset. -/
def nestEnd (builder : MessageBuilder) (offset : Nat) : MessageBuilder :=
  let len := builder.buf.length - offset
  let buf :=
    builder.buf.take offset ++ order.toBytes 2 (min len 65535) ++ builder.buf.drop (offset + 2)
  { buf := buf ++ padding buf.length }

/-- A nested attribute around what a step appends. -/
def nest (builder : MessageBuilder) (attrType : Nat)
    (body : MessageBuilder → MessageBuilder) : MessageBuilder :=
  (body (builder.nestStart order attrType)).nestEnd order builder.buf.length

/-- Write the sequence number into the header. -/
def setSeq (builder : MessageBuilder) (seq : Nat) : MessageBuilder where
  buf := builder.buf.take 8 ++ order.toBytes 4 seq ++ builder.buf.drop 12

/-- Write the port number into the header. -/
def setPid (builder : MessageBuilder) (pid : Nat) : MessageBuilder where
  buf := builder.buf.take 12 ++ order.toBytes 4 pid ++ builder.buf.drop 16

/-- Write the length of the message into its header. -/
def finish (builder : MessageBuilder) : List UInt8 :=
  order.toBytes 4 builder.buf.length ++ builder.buf.drop 4

end MessageBuilder

/-- A step appends some bytes, whatever the buffer holds. -/
structure Appends (step : MessageBuilder → MessageBuilder) (bytes : List UInt8) : Prop where
  appended : ∀ builder : MessageBuilder, 4 ∣ builder.buf.length →
    (step builder).buf = builder.buf ++ bytes
  aligned : 4 ∣ bytes.length

namespace Appends

theorem id : Appends (fun builder => builder) [] where
  appended := by
    intro builder _
    simp
  aligned := by simp

/-- Two writers one after the other append the bytes of both. -/
theorem comp {first second : MessageBuilder → MessageBuilder} {firstBytes secondBytes : List UInt8}
    (firstAppends : Appends first firstBytes) (secondAppends : Appends second secondBytes) :
    Appends (fun builder => second (first builder)) (firstBytes ++ secondBytes) where
  appended := by
    intro builder aligned
    have firstShape := firstAppends.appended builder aligned
    have stillAligned : 4 ∣ (first builder).buf.length := by
      rw [firstShape, length_append]
      exact Nat.dvd_add aligned firstAppends.aligned
    rw [secondAppends.appended _ stillAligned, firstShape, List.append_assoc]
  aligned := by
    rw [length_append]
    exact Nat.dvd_add firstAppends.aligned secondAppends.aligned

theorem appendAttr (order : ByteOrder) (attrType : Nat) (data : List UInt8) :
    let attr := (NlAttr.new attrType data.length).asBytes order ++ data
    Appends (fun builder => builder.appendAttr order attrType data)
      (attr ++ padding attr.length) where
  appended := by
    intro builder aligned
    simp only [MessageBuilder.appendAttr, List.append_assoc]
    rw [length_append, padding_add aligned]
  aligned := dvd_length_padding _

theorem nest (order : ByteOrder) (attrType : Nat) {body : MessageBuilder → MessageBuilder}
    {bytes : List UInt8} (bodyAppends : Appends body bytes) :
    Appends (fun builder => builder.nest order attrType body)
      (order.toBytes 2 (min (4 + bytes.length) 65535) ++
        order.toBytes 2 (attrType ||| NLA_F_NESTED) ++ bytes) where
  appended := by
    intro builder aligned
    have started : (builder.nestStart order attrType).buf =
        builder.buf ++ (order.toBytes 2 4 ++ order.toBytes 2 (attrType ||| NLA_F_NESTED)) := rfl
    have startedAligned : 4 ∣ (builder.nestStart order attrType).buf.length := by
      rw [started]
      simpa using aligned
    have inside := bodyAppends.appended _ startedAligned
    rw [started, List.append_assoc] at inside
    have len : (body (builder.nestStart order attrType)).buf.length -
        builder.buf.length = 4 + bytes.length := by
      rw [inside]
      simp only [length_append, ByteOrder.toBytes_length]
      omega
    have before : (body (builder.nestStart order attrType)).buf.take
          builder.buf.length = builder.buf := by
      rw [inside]
      simp
    have behind : (body (builder.nestStart order attrType)).buf.drop (builder.buf.length + 2) =
          order.toBytes 2 (attrType ||| NLA_F_NESTED) ++ bytes := by
      rw [inside, List.append_assoc, ← drop_drop, drop_left, drop_left' (by simp)]
    have whole :
        (4 : Nat) ∣ (builder.buf ++ order.toBytes 2 (min (4 + bytes.length) 65535)
          ++ (order.toBytes 2 (attrType ||| NLA_F_NESTED) ++ bytes)).length := by
      have bodyAligned := bodyAppends.aligned
      simp only [length_append, ByteOrder.toBytes_length]
      omega
    simp only [MessageBuilder.nest, MessageBuilder.nestEnd]
    rw [len, before, behind, padding_of_dvd whole]
    simp
  aligned := by
    have bodyAligned := bodyAppends.aligned
    simp only [length_append, ByteOrder.toBytes_length]
    omega

/-- A loop appends what each of its steps appends. -/
theorem foldl {step : MessageBuilder → α → MessageBuilder} {bytes : α → List UInt8}
    (stepAppends : ∀ item, Appends (fun builder => step builder item) (bytes item))
    (items : List α) : Appends (fun builder => items.foldl step builder) (items.flatMap bytes) := by
  induction items with
  | nil => exact Appends.id
  | cons item items ih => exact (stepAppends item).comp ih

end Appends

end Nlink.Netlink
