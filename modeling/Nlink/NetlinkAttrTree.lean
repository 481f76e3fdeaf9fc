import Nlink.NftablesAttrs

namespace Nlink.Netlink

open Foundation Nftables

/-!
# Trees of attributes, written and read

The builder has one function for each kind of payload and a pair of functions
for a nest.  A program that closes its nests in order writes a tree.  A reader
walks a level with the iterator and descends where its schema says that the
payload is a nest.
-/

namespace MessageBuilder

variable (order : ByteOrder)

def appendAttrU8 (builder : MessageBuilder) (attrType value : Nat) :
    MessageBuilder :=
  builder.appendAttr order attrType [UInt8.ofNat value]

/-- Append an attribute without payload. -/
def appendAttrEmpty (builder : MessageBuilder) (attrType : Nat) :
    MessageBuilder :=
  builder.appendAttr order attrType []

/-- Append a number in the host's byte order. -/
def appendAttrNe (builder : MessageBuilder) (width attrType value : Nat) :
    MessageBuilder :=
  builder.appendAttr order attrType (order.toBytes width value)

def appendAttrU16 (builder : MessageBuilder) (attrType value : Nat) :
    MessageBuilder :=
  builder.appendAttrNe order 2 attrType value

def appendAttrU32 (builder : MessageBuilder) (attrType value : Nat) :
    MessageBuilder :=
  builder.appendAttrNe order 4 attrType value

def appendAttrU64 (builder : MessageBuilder) (attrType value : Nat) :
    MessageBuilder :=
  builder.appendAttrNe order 8 attrType value

/-- Append a string without terminator. -/
def appendAttrString (builder : MessageBuilder) (attrType : Nat) (value : String) :
    MessageBuilder :=
  builder.appendAttr order attrType (asBytes value)

end MessageBuilder

/-- What is given to one of the builder's attribute functions. -/
inductive AttrValue where
  | bytes (data : List UInt8)
  | empty
  | u8 (value : Nat)
  | u16 (value : Nat)
  | u32 (value : Nat)
  | u64 (value : Nat)
  | u16Be (value : Nat)
  | u32Be (value : Nat)
  | u64Be (value : Nat)
  | str (value : String)
  | string (value : String)

namespace AttrValue

variable (order : ByteOrder)

/-- Append an attribute with the function for its kind of payload. -/
def append (value : AttrValue) (builder : MessageBuilder) (attrType : Nat) :
    MessageBuilder :=
  match value with
  | .bytes data => builder.appendAttr order attrType data
  | .empty => builder.appendAttrEmpty order attrType
  | .u8 value => builder.appendAttrU8 order attrType value
  | .u16 value => builder.appendAttrU16 order attrType value
  | .u32 value => builder.appendAttrU32 order attrType value
  | .u64 value => builder.appendAttrU64 order attrType value
  | .u16Be value => builder.appendAttrU16Be order attrType value
  | .u32Be value => builder.appendAttrU32Be order attrType value
  | .u64Be value => builder.appendAttrU64Be order attrType value
  | .str value => builder.appendAttrStr order attrType value
  | .string value => builder.appendAttrString order attrType value

def payload : AttrValue → List UInt8
  | .bytes data => data
  | .empty => []
  | .u8 value => [UInt8.ofNat value]
  | .u16 value => order.toBytes 2 value
  | .u32 value => order.toBytes 4 value
  | .u64 value => order.toBytes 8 value
  | .u16Be value => ByteOrder.big.toBytes 2 value
  | .u32Be value => ByteOrder.big.toBytes 4 value
  | .u64Be value => ByteOrder.big.toBytes 8 value
  | .str value => asBytes value ++ [0]
  | .string value => asBytes value

theorem append_eq (value : AttrValue) (builder : MessageBuilder) (attrType : Nat) :
    value.append order builder attrType =
      builder.appendAttr order attrType (value.payload order) := by
  cases value <;> rfl

end AttrValue

/-- What a program writes: attributes and nests, in order. -/
inductive AttrTree where
  | nil
  | attr (attrType : Nat) (value : AttrValue) (rest : AttrTree)
  | nest (attrType : Nat) (inner rest : AttrTree)

namespace AttrTree

variable (order : ByteOrder)

/-- Write a tree; a nest is ended before what follows it is written. -/
def write : AttrTree → MessageBuilder → MessageBuilder
  | .nil, builder => builder
  | .attr attrType value rest, builder => rest.write (value.append order builder attrType)
  | .nest attrType inner rest, builder => rest.write (builder.nest order attrType inner.write)

/-- The types and the payload bytes of a tree. -/
def attrs : AttrTree → Attrs
  | .nil => .nil
  | .attr attrType value rest => .leaf attrType (value.payload order) rest.attrs
  | .nest attrType inner rest => .nest attrType inner.attrs rest.attrs

variable (attrType : Nat)

theorem appends_attr (value : AttrValue) :
    Appends (fun builder => value.append order builder attrType)
      (Attrs.attrBytes order attrType (value.payload order)) := by
  have appends := Appends.appendAttr order attrType (value.payload order)
  simp only [← AttrValue.append_eq] at appends
  simpa [Attrs.attrBytes, NlAttr.asBytes, NlAttr.new, NLA_HDRLEN, ← Nat.add_assoc] using appends

theorem appends_nest_bytes {body : MessageBuilder → MessageBuilder}
    {bytes : List UInt8} (writes : Appends body bytes) :
    Appends (fun builder => builder.nest order attrType body)
      (Attrs.attrBytes order (attrType ||| NLA_F_NESTED) bytes) := by
  have unpadded : padding (4 + bytes.length) = [] :=
    padding_of_dvd (Nat.dvd_add (Nat.dvd_refl 4) writes.aligned)
  rw [Attrs.attrBytes, unpadded, List.append_nil, ← List.append_assoc]
  exact Appends.nest order attrType writes

theorem appends_nest {body : MessageBuilder → MessageBuilder} {inner : Attrs}
    (writes : Appends body (inner.encode order)) :
    Appends (fun builder => builder.nest order attrType body)
      (Attrs.attrBytes order (attrType ||| NLA_F_NESTED) (inner.encode order)) :=
  appends_nest_bytes order attrType writes

theorem appends_write (tree : AttrTree) :
    Appends (tree.write order) ((tree.attrs order).encode order) := by
  induction tree with
  | nil => exact Appends.id
  | attr attrType value rest ih => exact (appends_attr order attrType value).comp ih
  | nest attrType inner rest innerHypothesis ih =>
      exact (appends_nest order attrType innerHypothesis).comp ih

end AttrTree

end Nlink.Netlink

namespace Nlink.Nftables.Attrs

open Foundation Netlink

variable (order : ByteOrder)

/-- Types are free of flag bits, and each attribute with its header is short
enough for the length field. -/
def Fits : Attrs → Prop
  | .nil => True
  | .leaf attrType payload rest =>
      attrType < NLA_F_NET_BYTEORDER ∧ NLA_HDRLEN + payload.length ≤ 65535 ∧ rest.Fits
  | .nest attrType inner rest =>
      attrType < NLA_F_NET_BYTEORDER ∧ NLA_HDRLEN + (inner.encode order).length ≤ 65535 ∧
        inner.Fits ∧ rest.Fits

instance decidableFits : (attrs : Attrs) → Decidable (attrs.Fits order)
  | .nil => inferInstanceAs (Decidable True)
  | .leaf attrType payload rest =>
      have := decidableFits rest
      inferInstanceAs
        (Decidable
          (attrType < NLA_F_NET_BYTEORDER ∧ NLA_HDRLEN + payload.length ≤ 65535 ∧ rest.Fits order))
  | .nest attrType inner rest =>
      have := decidableFits inner
      have := decidableFits rest
      inferInstanceAs
        (Decidable
          (attrType < NLA_F_NET_BYTEORDER ∧ NLA_HDRLEN + (inner.encode order).length ≤ 65535 ∧
            inner.Fits order ∧ rest.Fits order))

/-- The attributes of the outermost level, each with its payload bytes. -/
def level : Attrs → List (Nat × List UInt8)
  | .nil => []
  | .leaf attrType payload rest => (attrType, payload) :: rest.level
  | .nest attrType inner rest => (attrType, inner.encode order) :: rest.level

/-- Read a tree off the attributes of a level; the schema says which payloads
are nests. -/
def read : Attrs → List (Nat × List UInt8) → Option Attrs
  | .nil, [] => some .nil
  | .leaf _ _ schema, (attrType, payload) :: found =>
      (schema.read found).map (.leaf attrType payload)
  | .nest _ innerSchema schema, (attrType, payload) :: found => do
      let inner ← innerSchema.read (attrIter order payload)
      let rest ← schema.read found
      return .nest attrType inner rest
  | _, _ => none

theorem fromBytes_header {len attrType : Nat} (rest : List UInt8) (lengthFits : len < 256 ^ 2)
    (typeFits : attrType < 256 ^ 2) :
    NlAttr.fromBytes order (order.toBytes 2 len ++ (order.toBytes 2 attrType ++ rest)) =
      some { nlaLen := len, nlaType := attrType } := by
  have lenRead := order.ofBytes_toBytes lengthFits
  have typeRead := order.ofBytes_toBytes typeFits
  obtain ⟨l0, l1, lenBytes⟩ := List.length_eq_two.mp (order.toBytes_length 2 len)
  obtain ⟨t0, t1, typeBytes⟩ := List.length_eq_two.mp (order.toBytes_length 2 attrType)
  rw [lenBytes] at lenRead ⊢
  rw [typeBytes] at typeRead ⊢
  rw [← lenRead, ← typeRead]
  rfl

theorem fromBytes_attrBytes {attrType : Nat} {payload : List UInt8} (rest : List UInt8)
    (typeFits : attrType < 256 ^ 2) (lengthFits : NLA_HDRLEN + payload.length ≤ 65535) :
    NlAttr.fromBytes order (attrBytes order attrType payload ++ rest) =
      some { nlaLen := payload.length + 4, nlaType := attrType } := by
  rw [NLA_HDRLEN] at lengthFits
  have len : min (4 + payload.length) 65535 = payload.length + 4 := by omega
  rw [attrBytes, len, List.append_assoc, List.append_assoc]
  exact fromBytes_header order _ (by omega) typeFits

theorem drop_attrBytes (attrType : Nat) (payload rest : List UInt8) :
    (attrBytes order attrType payload ++ rest).drop 4 =
      payload ++ (padding (4 + payload.length) ++ rest) := by
  rw [attrBytes, ← List.append_assoc (order.toBytes 2 _), List.append_assoc,
    List.drop_left' (by simp), List.append_assoc]

/-- The attribute in front is read back, and the rest is left. -/
theorem nextAttr_attrBytes {attrType : Nat} {payload : List UInt8} (rest : List UInt8)
    (typeFits : attrType < 256 ^ 2) (lengthFits : NLA_HDRLEN + payload.length ≤ 65535) :
    nextAttr order (attrBytes order attrType payload ++ rest) =
      some ((attrType % NLA_F_NET_BYTEORDER, payload), rest) := by
  have bytesLength := attrBytes_length order attrType payload
  have aligned := le_nlaAlign (payload.length + 4)
  have behind : (attrBytes order attrType payload ++ rest).drop
        (nlaAlign (payload.length + 4)) = rest :=
    List.drop_left' bytesLength
  have whole : (attrBytes order attrType payload ++ rest).length =
        nlaAlign (payload.length + 4) + rest.length := by
    rw [List.length_append, bytesLength]
  have header := fromBytes_attrBytes order rest typeFits lengthFits
  have body :
      ((attrBytes order attrType payload ++ rest).take (payload.length + 4)).drop 4 = payload := by
    rw [List.drop_take, drop_attrBytes]
    exact List.take_left' (by omega)
  have longEnough :
      ¬ (payload.length + 4 < NLA_HDRLEN ∨ (attrBytes order attrType payload ++ rest).length <
          payload.length + 4) := by
    rw [NLA_HDRLEN]
    omega
  rw [nextAttr, header]
  refine (if_neg longEnough).trans ?_
  exact congrArg some (Prod.ext (Prod.ext rfl body) behind)

theorem attrsFrom_attrBytes {attrType : Nat} {payload rest : List UInt8}
    {found : List (Nat × List UInt8)} (typeFits : attrType < 256 ^ 2)
    (lengthFits : NLA_HDRLEN + payload.length ≤ 65535)
    (walk : ∀ fuel, rest.length ≤ fuel → attrsFrom order fuel rest = found) {fuel : Nat}
    (enough : (attrBytes order attrType payload ++ rest).length ≤ fuel) :
    attrsFrom order fuel (attrBytes order attrType payload ++ rest) =
      (attrType % NLA_F_NET_BYTEORDER, payload) :: found := by
  have aligned := le_nlaAlign (payload.length + 4)
  rw [List.length_append, attrBytes_length] at enough
  cases fuel with
  | zero => omega
  | succ fuel =>
      rw [attrsFrom, nextAttr_attrBytes order rest typeFits lengthFits]
      exact congrArg (List.cons _) (walk fuel (by omega))

variable {attrs : Attrs}

theorem attrsFrom_encode (fits : attrs.Fits order) (fuel : Nat)
    (enough : (attrs.encode order).length ≤ fuel) :
    attrsFrom order fuel (attrs.encode order) = attrs.level order := by
  induction attrs generalizing fuel with
  | nil => cases fuel <;> rfl
  | leaf attrType payload rest ih =>
      obtain ⟨small, short, restFits⟩ := fits
      have found :=
        attrsFrom_attrBytes order (Nat.lt_trans small (by decide)) short (ih restFits) enough
      rw [Nat.mod_eq_of_lt small] at found
      exact found
  | nest attrType inner rest _ ih =>
      obtain ⟨small, short, _, restFits⟩ := fits
      have found := attrsFrom_attrBytes order (nested_lt small) short (ih restFits) enough
      rw [nested_kind small] at found
      exact found

/-- A tree of attributes is read back level by level. -/
theorem attrIter_encode (fits : attrs.Fits order) :
    attrIter order (attrs.encode order) = attrs.level order :=
  attrsFrom_encode order fits _ (Nat.le_refl _)

theorem read_level (fits : attrs.Fits order) :
    attrs.blank.read order (attrs.level order) = some attrs := by
  induction attrs with
  | nil => rfl
  | leaf attrType payload rest ih =>
      rw [blank, level, read, ih fits.2.2]
      rfl
  | nest attrType inner rest innerHypothesis ih =>
      obtain ⟨_, _, innerFits, restFits⟩ := fits
      rw [blank, level, read, attrIter_encode order innerFits,
        innerHypothesis innerFits, ih restFits]
      rfl

end Nlink.Nftables.Attrs
