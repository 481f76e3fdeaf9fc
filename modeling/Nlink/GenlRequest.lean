import Nlink.NetlinkReply
import Nlink.NetlinkRoute

namespace Nlink.Netlink

open Foundation Nftables List

/-!
# Writers

A writer is a step on a message together with the attributes that it appends.
It is put together as the program calls the builder, so what is written is known
from how it is written.  A writer is small if what it writes fits the length
fields, and then the attributes are found as they were written.
-/

def readU8 (bytes : List UInt8) : BitVec 8 :=
  BitVec.ofNat 8 (bytes.headD 0).toNat

@[simp]
theorem readU8_singleton (value : BitVec 8) : readU8 [UInt8.ofBitVec value] = value := by
  simp [readU8]

/-- A step on a message, and the attributes that it appends. -/
structure Writer (order : ByteOrder) where
  write : MessageBuilder → MessageBuilder
  attrs : List Attribute
  appends : Appends write (encodeAll order attrs)

namespace Writer

variable {order : ByteOrder}

/-!
## Putting writers together
-/

def nothing : Writer order where
  write := fun builder => builder
  attrs := []
  appends := Appends.id

/-- `append_attr`. -/
def attr (attrType : Nat) (payload : List UInt8) : Writer order where
  write := fun builder => builder.appendAttr order attrType payload
  attrs := [(attrType, payload)]
  appends := appends_one order attrType payload

/-- `append_attr_u8`. -/
def u8 (attrType : Nat) (value : BitVec 8) : Writer order where
  write := fun builder => builder.appendAttrU8 order attrType value.toNat
  attrs := [(attrType, [UInt8.ofNat value.toNat])]
  appends := appends_one order attrType [UInt8.ofNat value.toNat]

/-- `append_attr_u16`. -/
def u16 (attrType : Nat) (value : BitVec 16) : Writer order where
  write := fun builder => builder.appendAttrU16 order attrType value.toNat
  attrs := [(attrType, order.toBytes 2 value.toNat)]
  appends := appends_one order attrType (order.toBytes 2 value.toNat)

/-- `append_attr_u32`. -/
def u32 (attrType : Nat) (value : BitVec 32) : Writer order where
  write := fun builder => builder.appendAttrU32 order attrType value.toNat
  attrs := [(attrType, order.toBytes 4 value.toNat)]
  appends := appends_one order attrType (order.toBytes 4 value.toNat)

/-- `append_attr_u64`. -/
def u64 (attrType : Nat) (value : BitVec 64) : Writer order where
  write := fun builder => builder.appendAttrU64 order attrType value.toNat
  attrs := [(attrType, order.toBytes 8 value.toNat)]
  appends := appends_one order attrType (order.toBytes 8 value.toNat)

/-- `append_attr_u16_be`. -/
def u16Be (attrType : Nat) (value : BitVec 16) : Writer order where
  write := fun builder => builder.appendAttrU16Be order attrType value.toNat
  attrs := [(attrType, ByteOrder.big.toBytes 2 value.toNat)]
  appends := appends_one order attrType (ByteOrder.big.toBytes 2 value.toNat)

/-- `append_attr_u32_be`. -/
def u32Be (attrType : Nat) (value : BitVec 32) : Writer order where
  write := fun builder => builder.appendAttrU32Be order attrType value.toNat
  attrs := [(attrType, ByteOrder.big.toBytes 4 value.toNat)]
  appends := appends_one order attrType (ByteOrder.big.toBytes 4 value.toNat)

/-- `append_attr_str`. -/
def str (attrType : Nat) (value : String) : Writer order where
  write := fun builder => builder.appendAttrStr order attrType value
  attrs := [(attrType, asBytes value ++ [0])]
  appends := appends_one order attrType (asBytes value ++ [0])

/-- `append_attr_empty`. -/
def flag (attrType : Nat) : Writer order where
  write := fun builder => builder.appendAttrEmpty order attrType
  attrs := [(attrType, [])]
  appends := appends_one order attrType []

/-- One writer behind another. -/
def andThen (first second : Writer order) : Writer order where
  write := fun builder => second.write (first.write builder)
  attrs := first.attrs ++ second.attrs
  appends := first.appends.compAll order second.appends

/-- Writers, one behind another. -/
def all : List (Writer order) → Writer order
  | [] => nothing
  | writer :: rest => writer.andThen (all rest)

/-- A writer for a value that is there. -/
def whenSome {α : Type} (value : Option α) (writer : α → Writer order) : Writer order :=
  match value with
  | some value => writer value
  | none => nothing

/-- A writer under a condition. -/
def when (condition : Bool) (writer : Writer order) : Writer order :=
  if condition then writer else nothing

/-- A nest from `nest_start` to `nest_end`. -/
def nest (attrType : Nat) (body : Writer order) : Writer order where
  write := fun builder => builder.nest order attrType body.write
  attrs := [(attrType ||| NLA_F_NESTED, encodeAll order body.attrs)]
  appends := appends_nestAll order attrType body.appends

/-- A nest without the flag of nests, as the kernel sends most of its own. -/
def plainNest (attrType : Nat) (body : Writer order) : Writer order :=
  attr attrType (encodeAll order body.attrs)

theorem attrs_all (writers : List (Writer order)) :
    (all writers).attrs = writers.flatMap attrs := by
  induction writers with
  | nil => rfl
  | cons writer rest ih =>
      change writer.attrs ++ (all rest).attrs = _
      rw [ih, flatMap_cons]

/-!
## Small writers
-/

/-- What is written has at most this many bytes, and each attribute fits its
header. -/
def Small (writer : Writer order) (size : Nat) : Prop :=
  (encodeAll order writer.attrs).length ≤ size ∧ ∀ attr ∈ writer.attrs, attr.Fits

variable {writer : Writer order}

theorem Small.mono {size larger : Nat} (small : writer.Small size)
    (atMost : size ≤ larger) : writer.Small larger :=
  ⟨small.1.trans atMost, small.2⟩

@[simp]
theorem small_nothing (size : Nat) : (nothing : Writer order).Small size :=
  ⟨Nat.zero_le size, forall_mem_nil _⟩

variable {size : Nat} {payload : List UInt8}

theorem small_of_attrs {attrType : Nat}
    (isAttr : writer.attrs = [(attrType, payload)]) (plain : attrType < 256 ^ 2)
    (short : payload.length ≤ 65531) (fits : payload.length + 7 ≤ size) : writer.Small size := by
  rw [Small, isAttr, encodeAll, flatMap_singleton, forall_mem_singleton,
    Attrs.attrBytes_length, nlaAlign, Attribute.Fits, NLA_HDRLEN]
  dsimp only
  refine ⟨?_, plain, ?_⟩
  · omega
  · omega

@[simp]
theorem small_attr {attrType size : Nat} (plain : attrType < 65536)
    (fits : payload.length + 7 ≤ size) (short : size ≤ 65538) :
    (attr attrType payload : Writer order).Small size :=
  small_of_attrs rfl plain (by omega) fits

section Numbers

variable {attrType size : Nat} (plain : attrType < 65536)

include plain

@[simp]
theorem small_u8 (value : BitVec 8) (fits : 8 ≤ size) :
    (u8 attrType value : Writer order).Small size :=
  small_of_attrs rfl plain (by simp) (by simpa using fits)

@[simp]
theorem small_u16 (value : BitVec 16) (fits : 9 ≤ size) :
    (u16 attrType value : Writer order).Small size :=
  small_of_attrs rfl plain (by simp) (by simpa using fits)

@[simp]
theorem small_u32 (value : BitVec 32) (fits : 11 ≤ size) :
    (u32 attrType value : Writer order).Small size :=
  small_of_attrs rfl plain (by simp) (by simpa using fits)

@[simp]
theorem small_u64 (value : BitVec 64) (fits : 15 ≤ size) :
    (u64 attrType value : Writer order).Small size :=
  small_of_attrs rfl plain (by simp) (by simpa using fits)

@[simp]
theorem small_u16Be (value : BitVec 16) (fits : 9 ≤ size) :
    (u16Be attrType value : Writer order).Small size :=
  small_of_attrs rfl plain (by simp) (by simpa using fits)

@[simp]
theorem small_u32Be (value : BitVec 32) (fits : 11 ≤ size) :
    (u32Be attrType value : Writer order).Small size :=
  small_of_attrs rfl plain (by simp) (by simpa using fits)

@[simp]
theorem small_flag (fits : 7 ≤ size) : (flag attrType : Writer order).Small size :=
  small_of_attrs rfl plain (by simp) (by simpa using fits)

end Numbers

theorem small_str {attrType size : Nat} {value : String} (plain : attrType < 65536)
    (fits : (asBytes value).length + 8 ≤ size) (short : size ≤ 65538) :
    (str attrType value : Writer order).Small size :=
  small_of_attrs rfl plain (by simp; omega) (by simp; omega)

@[simp]
theorem small_whenSome {α : Type} {value : Option α} {writer : α → Writer order} :
    (whenSome value writer).Small size ↔
      ∀ found, value = some found → (writer found).Small size := by
  cases value with
  | none => simp [whenSome]
  | some value => simp [whenSome]

@[simp]
theorem small_when {condition : Bool} :
    (when condition writer).Small size ↔ (condition = true → writer.Small size) := by
  cases condition <;> simp [when]

/-- The sizes of two writers add up. -/
theorem Small.andThen {first second : Writer order} {size later : Nat} (small : first.Small size)
    (smallLater : second.Small later) : (first.andThen second).Small (size + later) := by
  refine ⟨?_, forall_mem_append.mpr ⟨small.2, smallLater.2⟩⟩
  change (encodeAll order (first.attrs ++ second.attrs)).length ≤ _
  rw [encodeAll, flatMap_append, length_append]
  exact Nat.add_le_add small.1 smallLater.1

/-- Writers that are small one by one are small together. -/
theorem Small.all (size : Nat) {writers : List (Writer order)} {total : Nat}
    (each : ∀ writer ∈ writers, writer.Small size) (fits : writers.length * size ≤ total) :
    (all writers).Small total := by
  induction writers generalizing total with
  | nil => exact small_nothing _
  | cons writer rest ih =>
      obtain ⟨first, later⟩ := forall_mem_cons.mp each
      rw [length_cons, Nat.succ_mul] at fits
      have together := first.andThen (ih later le_rfl)
      exact together.mono (by omega)

/-- A nest adds its header and the padding. -/
theorem Small.nest {body : Writer order} {size attrType : Nat} (small : body.Small size)
    (short : size ≤ 65531) (plain : attrType < NLA_F_NET_BYTEORDER) :
    (Writer.nest attrType body).Small (size + 7) := by
  have fits : attrType ||| NLA_F_NESTED < 256 ^ 2 :=
    Nat.or_lt_two_pow (n := 16) (Nat.lt_trans plain (by decide)) (by decide)
  exact small_of_attrs rfl fits (small.1.trans short) (Nat.add_le_add_right small.1 7)

/-!
## What is found
-/

/-- The attributes as the iterator yields them. -/
def seen (writer : Writer order) : List Attribute :=
  writer.attrs.map Attribute.masked

theorem seen_all_nil : (all [] : Writer order).seen = [] :=
  rfl

/-- The attributes of a list of writers are those of each in turn. -/
theorem seen_all_cons (writer : Writer order) (rest : List (Writer order)) :
    (all (writer :: rest)).seen = writer.seen ++ (all rest).seen :=
  map_append

theorem seen_attr (attrType : Nat) (payload : List UInt8) :
    (attr attrType payload : Writer order).seen = [(attrType % 16384, payload)] :=
  rfl

theorem seen_u16 (attrType : Nat) (value : BitVec 16) : (u16 attrType value : Writer order).seen =
      [(attrType % 16384, order.toBytes 2 value.toNat)] :=
  rfl

theorem seen_u32 (attrType : Nat) (value : BitVec 32) : (u32 attrType value : Writer order).seen =
      [(attrType % 16384, order.toBytes 4 value.toNat)] :=
  rfl

theorem seen_u64 (attrType : Nat) (value : BitVec 64) : (u64 attrType value : Writer order).seen =
      [(attrType % 16384, order.toBytes 8 value.toNat)] :=
  rfl

theorem seen_str (attrType : Nat) (value : String) : (str attrType value : Writer order).seen =
      [(attrType % 16384, asBytes value ++ [0])] :=
  rfl

theorem foldl_seen_whenSome {α σ : Type} (step : σ → Attribute → σ) (state : σ) (value : Option α)
    (writer : α → Writer order) :
    (whenSome value writer).seen.foldl step state =
      value.elim state fun value => (writer value).seen.foldl step state := by
  cases value <;> rfl

theorem attrIter_written (small : writer.Small size)
    {builder : MessageBuilder} (aligned : 4 ∣ builder.buf.length) :
    attrIter order ((writer.write builder).buf.drop builder.buf.length) =
      writer.seen := by
  rw [writer.appends.appended builder aligned, drop_left,
    attrIter_encodeAll order small.2, seen]

/-- What a writer writes is read back as the attributes it shows. -/
theorem attrIter_payload (small : writer.Small size) :
    attrIter order (encodeAll order writer.attrs) = writer.seen := by
  rw [attrIter_encodeAll order small.2, seen]

theorem lastOf_append (first second : List Attribute) (attrType : Nat) :
    lastOf (first ++ second) attrType = (lastOf second attrType).or (lastOf first attrType) := by
  induction second using List.reverseRecOn with
  | nil =>
      rw [List.append_nil]
      rfl
  | append_singleton second attr ih =>
      rw [← List.append_assoc, lastOf_concat, lastOf_concat, ih]
      split
      · rfl
      · rfl

/-- The payload that is found for a type: the one that was written last. -/
def found (writer : Writer order) (attrType : Nat) : Option (List UInt8) :=
  lastOf writer.seen attrType

variable (attrType wanted : Nat)

/-- The last attribute of a type, among those a writer shows. -/
theorem lastOf_seen (writer : Writer order) : lastOf writer.seen wanted = writer.found wanted :=
  rfl

theorem found_of_attrs {attrType : Nat} (isAttr : writer.attrs = [(attrType, payload)]) :
    writer.found wanted =
      if attrType % 16384 = wanted then some payload else none := by
  rw [found, seen, isAttr]
  rfl

@[simp]
theorem found_attr (payload : List UInt8) : (attr attrType payload : Writer order).found wanted =
      if attrType % 16384 = wanted then some payload else none :=
  found_of_attrs wanted rfl

@[simp]
theorem found_u8 (value : BitVec 8) : (u8 attrType value : Writer order).found wanted =
      if attrType % 16384 = wanted then
        some [UInt8.ofNat value.toNat]
      else
        none :=
  found_of_attrs wanted rfl

@[simp]
theorem found_u16 (value : BitVec 16) : (u16 attrType value : Writer order).found wanted =
      if attrType % 16384 = wanted then
        some (order.toBytes 2 value.toNat)
      else
        none :=
  found_of_attrs wanted rfl

@[simp]
theorem found_u32 (value : BitVec 32) : (u32 attrType value : Writer order).found wanted =
      if attrType % 16384 = wanted then
        some (order.toBytes 4 value.toNat)
      else
        none :=
  found_of_attrs wanted rfl

@[simp]
theorem found_u16Be (value : BitVec 16) : (u16Be attrType value : Writer order).found wanted =
      if attrType % 16384 = wanted then
        some (ByteOrder.big.toBytes 2 value.toNat)
      else
        none :=
  found_of_attrs wanted rfl

@[simp]
theorem found_u32Be (value : BitVec 32) : (u32Be attrType value : Writer order).found wanted =
      if attrType % 16384 = wanted then
        some (ByteOrder.big.toBytes 4 value.toNat)
      else
        none :=
  found_of_attrs wanted rfl

@[simp]
theorem found_str (value : String) : (str attrType value : Writer order).found wanted =
      if attrType % 16384 = wanted then some (asBytes value ++ [0]) else none :=
  found_of_attrs wanted rfl

@[simp]
theorem found_andThen (first second : Writer order) : (first.andThen second).found wanted =
      (second.found wanted).or (first.found wanted) := by
  rw [found, seen]
  change lastOf ((first.attrs ++ second.attrs).map Attribute.masked) wanted = _
  rw [map_append, lastOf_append]
  rfl

@[simp]
theorem found_all_nil : (all [] : Writer order).found wanted = none :=
  rfl

@[simp]
theorem found_all_cons (writer : Writer order) (rest : List (Writer order)) :
    (all (writer :: rest)).found wanted = ((all rest).found wanted).or (writer.found wanted) :=
  found_andThen wanted writer (all rest)

@[simp]
theorem found_whenSome {α : Type} (value : Option α) (writer : α → Writer order) :
    (whenSome value writer).found wanted = value.bind fun value => (writer value).found wanted := by
  cases value <;> rfl

@[simp]
theorem found_when (condition : Bool) (writer : Writer order) :
    (when condition writer).found wanted =
      if condition then writer.found wanted else none := by
  cases condition <;> rfl

theorem bind_some_eq_map {α β : Type} (value : Option α) (f : α → β) :
    (value.bind fun value => some (f value)) = value.map f :=
  Option.map_eq_bind.symm

@[simp]
theorem found_nest_flagged (body : Writer order) : (nest attrType body).found wanted =
      if (attrType ||| 32768) % 16384 = wanted then
        some (encodeAll order body.attrs)
      else
        none :=
  found_of_attrs wanted rfl

theorem seen_nest {attrType : Nat} (plain : attrType < NLA_F_NET_BYTEORDER) (body : Writer order) :
    (nest attrType body).seen = [(attrType, encodeAll order body.attrs)] := by
  change [Attribute.masked (attrType ||| NLA_F_NESTED, _)] = _
  rw [Attribute.masked_nested plain]

/-- A nest is found under its type, as the encoding of its body. -/
theorem found_nest {attrType : Nat} (plain : attrType < NLA_F_NET_BYTEORDER) (body : Writer order) :
    (nest attrType body).found wanted =
      if attrType = wanted then some (encodeAll order body.attrs) else none := by
  rw [found, seen_nest plain]
  rfl

end Writer

/-!
## Requests of generic netlink

A request is a command with attributes behind it.  The kernel finds both as they
were written.
-/

section Request

variable (order : ByteOrder)

/-- `GenlMsgHdr::new(cmd, version)`. -/
def genlMsgHdr (cmd version : UInt8) : List UInt8 :=
  [cmd, version, 0, 0]

/-- A request to a family: its headers, and the attributes of a writer. -/
def genlRequest (familyId flags : BitVec 16) (cmd version : UInt8) (writer : Writer order) :
    MessageBuilder :=
  writer.write ((MessageBuilder.new order familyId.toNat flags.toNat).appendBytes
    (genlMsgHdr cmd version))

/-- The command and the attributes that the kernel finds in a request. -/
def genlReceived (request : MessageBuilder) : Nat × List Attribute :=
  ((request.buf.getD 16 0).toNat, attrIter order (request.buf.drop 20))

variable {order}

/-- A message with a fixed header in front of the attributes of a writer. -/
theorem Writer.buf_behind (writer : Writer order) (msgType flags : Nat) {header : List UInt8}
    (aligned : 4 ∣ header.length) :
    (writer.write ((MessageBuilder.new order msgType flags).appendBytes header)).buf =
      (NlMsgHdr.new msgType flags).asBytes order ++ (header ++ encodeAll order writer.attrs) := by
  have start : 4 ∣ (MessageBuilder.new order msgType flags).buf.length := by
    rw [MessageBuilder.new, asBytes_length]
    exact ⟨4, rfl⟩
  exact ((appends_header aligned).comp writer.appends).appended _ start

theorem buf_genlRequest (familyId flags : BitVec 16) (cmd version : UInt8) (writer : Writer order) :
    (genlRequest order familyId flags cmd version writer).buf =
      (NlMsgHdr.new familyId.toNat flags.toNat).asBytes order ++
        (genlMsgHdr cmd version ++ encodeAll order writer.attrs) :=
  writer.buf_behind familyId.toNat flags.toNat ⟨1, rfl⟩

/-- A request is received with its command and its attributes. -/
theorem genlReceived_genlRequest (familyId flags : BitVec 16) (cmd version : UInt8)
    {writer : Writer order} {size : Nat} (small : writer.Small size) :
    genlReceived order (genlRequest order familyId flags cmd version writer) =
      (cmd.toNat, writer.seen) := by
  have headerLength : ((NlMsgHdr.new familyId.toNat flags.toNat).asBytes order).length = 16 :=
    asBytes_length order _
  rw [genlReceived, buf_genlRequest]
  refine Prod.ext ?_ ?_
  · change (List.getD (α := UInt8) _ 16 0).toNat = cmd.toNat
    rw [getD_eq_getElem?_getD,
      getElem?_append_right (Nat.le_of_eq headerLength), headerLength]
    rfl
  · change attrIter order (List.drop 20 _) = writer.seen
    rw [← List.append_assoc, drop_left' (by
      rw [length_append, headerLength]
      rfl)]
    exact Writer.attrIter_payload small

end Request

end Nlink.Netlink
