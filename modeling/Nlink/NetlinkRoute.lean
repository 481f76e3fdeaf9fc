import Mathlib.Data.List.Induction
import Nlink.NetlinkAttrTree

namespace Nlink.Netlink

open Foundation Nftables List

/-!
# Lists of attributes

A level of a message is a list of attributes.  What the builder appends for
them is their bytes, and the iterator yields them back.
-/

variable (order : ByteOrder)

/-- An attribute as it stands in a message: its type with flag bits, and its
payload. -/
abbrev Attribute : Type :=
  Nat × List UInt8

def encodeAll (attrs : List Attribute) : List UInt8 :=
  attrs.flatMap fun attr => Attrs.attrBytes order attr.1 attr.2

/-- The attribute's type fits its field, and its length is below 64 KiB. -/
def Attribute.Fits (attr : Attribute) : Prop :=
  attr.1 < 256 ^ 2 ∧ NLA_HDRLEN + attr.2.length ≤ 65535

instance (attr : Attribute) : Decidable attr.Fits :=
  inferInstanceAs (Decidable (_ ∧ _))

/-- An attribute as the iterator yields it, without flag bits. -/
def Attribute.masked (attr : Attribute) : Attribute :=
  (attr.1 % NLA_F_NET_BYTEORDER, attr.2)

variable {attrs : List Attribute}

/-- Attributes that fit are read back without the flags of their types. -/
theorem attrIter_encodeAll (fit : ∀ attr ∈ attrs, attr.Fits) :
    attrIter order (encodeAll order attrs) = attrs.map Attribute.masked := by
  induction attrs with
  | nil => exact attrIter_of_none rfl
  | cons attr rest ih =>
      obtain ⟨⟨typeFits, lengthFits⟩, restFit⟩ := forall_mem_cons.mp fit
      have next := Attrs.nextAttr_attrBytes order (encodeAll order rest) typeFits lengthFits
      rw [encodeAll, flatMap_cons, ← encodeAll, attrIter_of_next next, ih restFit]
      rfl

variable {attr : Attribute}

theorem Attribute.masked_of_lt (plain : attr.1 < NLA_F_NET_BYTEORDER) : attr.masked = attr := by
  rw [masked, Nat.mod_eq_of_lt plain]

/-- The nested flag is masked off. -/
theorem Attribute.masked_nested {attr : Nat} {payload : List UInt8}
    (plain : attr < NLA_F_NET_BYTEORDER) :
    Attribute.masked (attr ||| NLA_F_NESTED, payload) = (attr, payload) :=
  Prod.ext (Attrs.nested_kind plain) rfl

/-- Plain attributes are read back as they are. -/
theorem attrIter_encodeAll_plain (plain : ∀ attr ∈ attrs, attr.1 < NLA_F_NET_BYTEORDER)
    (short : ∀ attr ∈ attrs, NLA_HDRLEN + attr.2.length ≤ 65535) :
    attrIter order (encodeAll order attrs) = attrs := by
  have fit : ∀ attr ∈ attrs, attr.Fits := fun attr member =>
    ⟨Nat.lt_trans (plain attr member) (by decide), short attr member⟩
  rw [attrIter_encodeAll order fit]
  exact (map_congr_left fun attr member =>
    Attribute.masked_of_lt (plain attr member)).trans (map_id attrs)

theorem length_le_encodeAll (member : attr ∈ attrs) :
    NLA_HDRLEN + attr.2.length ≤ (encodeAll order attrs).length := by
  obtain ⟨before, after, rfl⟩ := append_of_mem member
  have padded := le_nlaAlign (attr.2.length + 4)
  rw [encodeAll, flatMap_append, flatMap_cons, length_append,
    length_append, Attrs.attrBytes_length, NLA_HDRLEN]
  omega

theorem length_mul_le_encodeAll (attrs : List Attribute) :
    attrs.length * NLA_HDRLEN ≤ (encodeAll order attrs).length := by
  induction attrs with
  | nil => exact Nat.zero_le _
  | cons attr rest ih =>
      have padded := le_nlaAlign (attr.2.length + 4)
      rw [encodeAll] at ih
      rw [encodeAll, flatMap_cons, length_append,
        Attrs.attrBytes_length, length_cons, Nat.add_mul, NLA_HDRLEN] at *
      omega

def numbered (payloads : List (List UInt8)) : List Attribute :=
  (payloads.zipIdx 1).map Prod.swap

theorem payload_mem_of_mem_numbered {payloads : List (List UInt8)}
    (member : attr ∈ numbered payloads) : attr.2 ∈ payloads := by
  obtain ⟨⟨payload, index⟩, inPayloads, rfl⟩ := mem_map.mp member
  exact fst_mem_of_mem_zipIdx inPayloads

theorem attrIter_numbered {payloads : List (List UInt8)}
    (short : (encodeAll order (numbered payloads)).length ≤ 65535) :
    attrIter order (encodeAll order (numbered payloads)) = numbered payloads := by
  have count := length_mul_le_encodeAll order (numbered payloads)
  rw [NLA_HDRLEN, numbered, length_map, length_zipIdx, ← numbered] at count
  refine attrIter_encodeAll_plain order ?_ ?_
  · intro attr member
    obtain ⟨⟨payload, index⟩, inPayloads, rfl⟩ := mem_map.mp member
    have bounded := (mem_zipIdx inPayloads).2.1
    change index < NLA_F_NET_BYTEORDER
    rw [NLA_F_NET_BYTEORDER]
    omega
  · intro attr member
    exact (length_le_encodeAll order member).trans short

theorem encodeAll_length_le {bound : Nat} (short : ∀ attr ∈ attrs, attr.2.length ≤ bound) :
    (encodeAll order attrs).length ≤ attrs.length * (bound + 7) := by
  induction attrs with
  | nil => exact Nat.zero_le _
  | cons attr rest ih =>
      obtain ⟨attrShort, restShort⟩ := forall_mem_cons.mp short
      have later := ih restShort
      rw [encodeAll] at later
      rw [encodeAll, flatMap_cons, length_append,
        Attrs.attrBytes_length, nlaAlign, length_cons, Nat.add_mul]
      omega

/-- Appending an attribute appends its encoding. -/
theorem appends_one (attr : Nat) (payload : List UInt8) :
    Appends (fun builder => builder.appendAttr order attr payload)
      (encodeAll order [(attr, payload)]) := by
  rw [encodeAll, flatMap_singleton]
  exact AttrTree.appends_attr order attr (.bytes payload)

/-- A nest appends one attribute with those of its body inside. -/
theorem appends_nestAll (attr : Nat) {body : MessageBuilder → MessageBuilder}
    (writes : Appends body (encodeAll order attrs)) :
    Appends (fun builder => builder.nest order attr body)
      (encodeAll order [(attr ||| NLA_F_NESTED, encodeAll order attrs)]) := by
  rw [encodeAll, encodeAll, flatMap_singleton]
  exact AttrTree.appends_nest_bytes order attr writes

/-- Two writers one after the other append the attributes of both. -/
theorem Appends.compAll {first second : MessageBuilder → MessageBuilder}
    {attrs later : List Attribute} (writes : Appends first (encodeAll order attrs))
    (writesLater : Appends second (encodeAll order later)) :
    Appends (fun builder => second (first builder)) (encodeAll order (attrs ++ later)) := by
  rw [encodeAll, flatMap_append]
  exact writes.comp writesLater

/-!
## Route messages

A route message is a fixed header of twelve bytes and attributes behind it.
Addresses are in network byte order.
-/

abbrev Ipv4Addr := BitVec 32
abbrev Ipv6Addr := BitVec 128

def Ipv4Addr.octets (addr : Ipv4Addr) : List UInt8 :=
  ByteOrder.big.toBytes 4 addr.toNat

def Ipv4Addr.fromOctets (bytes : List UInt8) : Ipv4Addr :=
  BitVec.ofNat 32 (ByteOrder.big.ofBytes bytes)

def Ipv6Addr.octets (addr : Ipv6Addr) : List UInt8 :=
  ByteOrder.big.toBytes 16 addr.toNat

def Ipv6Addr.fromOctets (bytes : List UInt8) : Ipv6Addr :=
  BitVec.ofNat 128 (ByteOrder.big.ofBytes bytes)

variable (addr : Ipv4Addr)

@[simp]
theorem Ipv4Addr.octets_length : addr.octets.length = 4 :=
  ByteOrder.toBytes_length ..

@[simp]
theorem Ipv6Addr.octets_length (addr : Ipv6Addr) : addr.octets.length = 16 :=
  ByteOrder.toBytes_length ..

@[simp]
theorem Ipv4Addr.take_octets : addr.octets.take 4 = addr.octets :=
  take_of_length_le (Nat.le_of_eq addr.octets_length)

@[simp]
theorem Ipv6Addr.take_octets (addr : Ipv6Addr) : addr.octets.take 16 = addr.octets :=
  take_of_length_le (Nat.le_of_eq addr.octets_length)

@[simp]
theorem Ipv4Addr.fromOctets_octets : fromOctets addr.octets = addr := by
  have fits : addr.toNat < 256 ^ 4 := addr.isLt
  rw [fromOctets, octets, ByteOrder.ofBytes_toBytes _ fits, BitVec.ofNat_toNat, BitVec.setWidth_eq]

@[simp]
theorem Ipv6Addr.fromOctets_octets (addr : Ipv6Addr) : fromOctets addr.octets = addr := by
  have fits : addr.toNat < 256 ^ 16 := addr.isLt
  rw [fromOctets, octets, ByteOrder.ofBytes_toBytes _ fits, BitVec.ofNat_toNat, BitVec.setWidth_eq]

variable (order : ByteOrder)

/-- The first four bytes, as a number in the host's byte order. -/
def readU32 (bytes : List UInt8) : BitVec 32 :=
  BitVec.ofNat 32 (order.ofBytes (bytes.take 4))

/-- The first two bytes, as a number in the host's byte order. -/
def readU16 (bytes : List UInt8) : BitVec 16 :=
  BitVec.ofNat 16 (order.ofBytes (bytes.take 2))

@[simp]
theorem readU32_toBytes (value : BitVec 32) :
    readU32 order (order.toBytes 4 value.toNat) = value := by
  have fits : value.toNat < 256 ^ 4 := value.isLt
  rw [readU32, take_of_length_le (by simp),
    ByteOrder.ofBytes_toBytes _ fits, BitVec.ofNat_toNat, BitVec.setWidth_eq]

/-- A number of four bytes, if they are there. -/
def u32Or (data : List UInt8) (old : Option (BitVec 32)) : Option (BitVec 32) :=
  if 4 ≤ data.length then some (readU32 order data) else old

@[simp]
theorem u32Or_toBytes (value : BitVec 32) (old : Option (BitVec 32)) :
    u32Or order (order.toBytes 4 value.toNat) old = some value := by
  rw [u32Or, if_pos (by rw [ByteOrder.toBytes_length]), readU32_toBytes]

theorem readU32_toBytes_ofNat {value : Nat} (fits : value < 256 ^ 4) :
    readU32 order (order.toBytes 4 value) = BitVec.ofNat 32 value := by
  rw [readU32, take_of_length_le (by simp), ByteOrder.ofBytes_toBytes _ fits]

@[simp]
theorem readU16_toBytes (value : BitVec 16) :
    readU16 order (order.toBytes 2 value.toNat) = value := by
  have fits : value.toNat < 256 ^ 2 := value.isLt
  rw [readU16, take_of_length_le (by simp),
    ByteOrder.ofBytes_toBytes _ fits, BitVec.ofNat_toNat, BitVec.setWidth_eq]

/-- `RtMsg`. -/
structure RtMsg where
  rtmFamily : UInt8
  rtmDstLen : UInt8
  rtmSrcLen : UInt8
  rtmTos : UInt8
  rtmTable : UInt8
  rtmProtocol : UInt8
  rtmScope : UInt8
  rtmType : UInt8
  rtmFlags : BitVec 32
  deriving DecidableEq

namespace RtMsg

def SIZE : Nat := 12

/-- `RtMsg::new`. -/
def new : RtMsg :=
  { rtmFamily := 0, rtmDstLen := 0, rtmSrcLen := 0, rtmTos := 0,
    rtmTable := 0, rtmProtocol := 0, rtmScope := 0, rtmType := 0,
    rtmFlags := 0 }

def asBytes (msg : RtMsg) : List UInt8 :=
  [msg.rtmFamily, msg.rtmDstLen, msg.rtmSrcLen, msg.rtmTos, msg.rtmTable,
    msg.rtmProtocol, msg.rtmScope, msg.rtmType] ++
    order.toBytes 4 msg.rtmFlags.toNat

/-- Read a header off the front of the bytes. -/
def fromBytes : List UInt8 → Except Error RtMsg
  | family :: dstLen :: srcLen :: tos :: table :: protocol :: scope ::
      rtmType :: flags =>
      if flags.length < 4 then
        .error (.truncated SIZE (8 + flags.length))
      else
        .ok
          { rtmFamily := family, rtmDstLen := dstLen, rtmSrcLen := srcLen,
            rtmTos := tos, rtmTable := table, rtmProtocol := protocol,
            rtmScope := scope, rtmType := rtmType,
            rtmFlags := readU32 order flags }
  | data => .error (.truncated SIZE data.length)

@[simp]
theorem asBytes_length (msg : RtMsg) : (msg.asBytes order).length = SIZE := by
  rw [asBytes, length_append, ByteOrder.toBytes_length]
  rfl

/-- A route header is read back. -/
theorem fromBytes_asBytes (msg : RtMsg) (rest : List UInt8) :
    fromBytes order (msg.asBytes order ++ rest) = .ok msg := by
  have flags : readU32 order (order.toBytes 4 msg.rtmFlags.toNat ++ rest) =
        msg.rtmFlags := by
    rw [readU32, take_left' (ByteOrder.toBytes_length ..)]
    simpa [readU32, take_of_length_le] using readU32_toBytes order msg.rtmFlags
  have long : ¬ (order.toBytes 4 msg.rtmFlags.toNat ++ rest).length < 4 := by
    rw [length_append, ByteOrder.toBytes_length]
    omega
  rw [asBytes, List.append_assoc]
  refine (if_neg long).trans ?_
  exact congrArg (fun flags => Except.ok { msg with rtmFlags := flags }) flags

end RtMsg

namespace RtaAttr

def DST : Nat := 1
def IIF : Nat := 3
def OIF : Nat := 4
def VIA : Nat := 18
def NEWDST : Nat := 19
def ENCAP_TYPE : Nat := 21
def ENCAP : Nat := 22

end RtaAttr

/-- The payload of the last attribute of a type, as the kernel keeps it. -/
def lastOf (attrs : List Attribute) (attrType : Nat) : Option (List UInt8) :=
  attrs.foldl (fun found attr => if attr.1 = attrType then some attr.2 else found) none

theorem lastOf_concat (attrs : List Attribute) (attr : Attribute) (attrType : Nat) :
    lastOf (attrs ++ [attr]) attrType =
      if attr.1 = attrType then some attr.2 else lastOf attrs attrType :=
  foldl_concat ..

theorem mem_of_lastOf {attrs : List Attribute} {attrType : Nat} {payload : List UInt8}
    (found : lastOf attrs attrType = some payload) : (attrType, payload) ∈ attrs := by
  induction attrs using List.reverseRecOn with
  | nil => cases found
  | append_singleton attrs attr ih =>
      rw [lastOf_concat] at found
      by_cases here : attr.1 = attrType
      · rw [if_pos here] at found
        cases found
        cases here
        exact mem_append_right _ (mem_singleton_self _)
      · rw [if_neg here] at found
        exact mem_append_left _ (ih found)

theorem lastOf_append_of_ne {attrs later : List Attribute} {attrType : Nat}
    (others : ∀ attr ∈ later, attr.1 ≠ attrType) :
    lastOf (attrs ++ later) attrType = lastOf attrs attrType := by
  induction later using List.reverseRecOn with
  | nil => rw [List.append_nil]
  | append_singleton later attr ih =>
      obtain ⟨before, here⟩ := forall_mem_append.mp others
      rw [← List.append_assoc, lastOf_concat, if_neg (here attr (mem_singleton_self _)), ih before]

/-- A header of whole words is appended as it is. -/
theorem appends_header {bytes : List UInt8} (aligned : 4 ∣ bytes.length) :
    Appends (fun builder => builder.appendBytes bytes) bytes where
  appended := by
    intro builder bufferAligned
    have whole : 4 ∣ (builder.buf ++ bytes).length := by
      rw [length_append]
      exact Nat.dvd_add bufferAligned aligned
    rw [MessageBuilder.appendBytes, padding_of_dvd whole, List.append_nil]
  aligned := aligned

end Nlink.Netlink
