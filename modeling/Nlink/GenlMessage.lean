import Nlink.NetlinkAttrTree
import Nlink.NftablesRuleset

namespace Nlink.Genl

open Foundation Netlink

/-!
# The helpers that derived messages call

One function writes an attribute and one reads its payload, for each kind of
value.  Integers are bit vectors, so that a signed and an unsigned integer of
one width have one representation on the wire.
-/

section Emit

variable (order : ByteOrder) (builder : MessageBuilder) (attrType : Nat)

def emitU8Attr (value : BitVec 8) : MessageBuilder :=
  builder.appendAttrU8 order attrType value.toNat

def emitU16Attr (value : BitVec 16) : MessageBuilder :=
  builder.appendAttrU16 order attrType value.toNat

def emitU32Attr (value : BitVec 32) : MessageBuilder :=
  builder.appendAttrU32 order attrType value.toNat

def emitU64Attr (value : BitVec 64) : MessageBuilder :=
  builder.appendAttrU64 order attrType value.toNat

def emitI32Attr (value : BitVec 32) : MessageBuilder :=
  builder.appendAttrU32 order attrType value.toNat

def emitI64Attr (value : BitVec 64) : MessageBuilder :=
  builder.appendAttrU64 order attrType value.toNat

def emitStrAttr (value : String) : MessageBuilder :=
  builder.appendAttrStr order attrType value

def emitBytesAttr (value : List UInt8) : MessageBuilder :=
  builder.appendAttr order attrType value

/-- Whether a signed number fits 32 bits. -/
def fitsI32 (value : BitVec 64) : Bool :=
  -2 ^ 31 ≤ value.toInt && value.toInt < 2 ^ 31

/-- A signed number in four bytes if it fits, else in eight. -/
def emitSintAttr (value : BitVec 64) : MessageBuilder :=
  if fitsI32 value then
    builder.appendAttrU32 order attrType (value.setWidth 32).toNat
  else
    builder.appendAttrU64 order attrType value.toNat

end Emit

section Parse

variable (order : ByteOrder)

/-- A fixed-width number off the front of a payload. -/
def parseFixed (width : Nat) (payload : List UInt8) : Except Error (BitVec (8 * width)) :=
  if payload.length < width then
    .error (.truncated width payload.length)
  else
    .ok (BitVec.ofNat (8 * width) (order.ofBytes (payload.take width)))

def parseU8Attr (payload : List UInt8) : Except Error (BitVec 8) :=
  parseFixed order 1 payload

def parseU16Attr (payload : List UInt8) : Except Error (BitVec 16) :=
  parseFixed order 2 payload

def parseU32Attr (payload : List UInt8) : Except Error (BitVec 32) :=
  parseFixed order 4 payload

def parseU64Attr (payload : List UInt8) : Except Error (BitVec 64) :=
  parseFixed order 8 payload

def parseI32Attr (payload : List UInt8) : Except Error (BitVec 32) :=
  parseFixed order 4 payload

def parseI64Attr (payload : List UInt8) : Except Error (BitVec 64) :=
  parseFixed order 8 payload

/-- A signed number in four bytes or in eight. -/
def parseSintAttrAsI64 (payload : List UInt8) : Except Error (BitVec 64) :=
  if payload.length = 4 then
    .ok ((BitVec.ofNat 32 (order.ofBytes payload)).signExtend 64)
  else if 8 ≤ payload.length then
    .ok (BitVec.ofNat 64 (order.ofBytes (payload.take 8)))
  else
    .error (.truncated 4 payload.length)

def parseSintAttrAsI32 (payload : List UInt8) : Except Error (BitVec 32) := do
  let widened ← parseSintAttrAsI64 order payload
  if fitsI32 widened then
    .ok (widened.setWidth 32)
  else
    .error
      (.invalidMessage ("sint attribute value " ++ toString widened.toInt ++
          " does not fit in i32 (kernel emitted 8-byte sint; " ++
          "field needs i64 widening — see Plan 226 / " ++
          "Plan 226 follow-on 0.21)"))

/-- Whether a byte goes on with a character. -/
def isContinuation (byte : UInt8) : Bool :=
  byte &&& 0xC0 == 0x80

/-- The second bytes that a first byte of three or four allows. -/
def allowsSecond (first second : UInt8) : Bool :=
  if first = 0xE0 then
    0xA0 ≤ second && second ≤ 0xBF
  else if first = 0xED then
    0x80 ≤ second && second ≤ 0x9F
  else if first = 0xF0 then
    0x90 ≤ second && second ≤ 0xBF
  else if first = 0xF4 then
    0x80 ≤ second && second ≤ 0x8F
  else
    isContinuation second

/-- How many bytes a character has, by its first byte. -/
def charWidth (first : UInt8) : Nat :=
  if first < 0x80 then
    1
  else if 0xC2 ≤ first && first ≤ 0xDF then
    2
  else if 0xE0 ≤ first && first ≤ 0xEF then
    3
  else if 0xF0 ≤ first && first ≤ 0xF4 then
    4
  else
    0

/-- How many of the bytes behind the first one, up to a number, go on with a
character. -/
def continuations (first : UInt8) (count : Nat) (rest : List UInt8) : Nat :=
  match rest with
  | [] => 0
  | second :: later =>
      if count = 0 then
        0
      else if allowsSecond first second then
        1 + ((later.take (count - 1)).takeWhile isContinuation).length
      else
        0

/-- The text of bytes that are not all well formed: each longest beginning of a
character that does not go on as one is replaced. -/
def lossyText : Nat → List UInt8 → String
  | fuel + 1, first :: rest =>
      let width := charWidth first
      let more := continuations first (width - 1) rest
      let char :=
        if width = 0 ∨ more + 1 < width then
          "\uFFFD"
        else
          (Nftables.fromUtf8 (first :: rest.take more)).getD "\uFFFD"
      char ++ lossyText fuel (rest.drop more)
  | _, _ => ""

/-- `String::from_utf8_lossy`. -/
def fromUtf8Lossy (bytes : List UInt8) : String :=
  match Nftables.fromUtf8 bytes with
  | some text => text
  | none => lossyText bytes.length bytes

def parseStrAttr (payload : List UInt8) : Except Error String :=
  .ok (fromUtf8Lossy (payload.takeWhile (· != 0)))

def parseBytesAttr (payload : List UInt8) : Except Error (List UInt8) :=
  .ok payload

end Parse

/-- A string without NUL. -/
def NoNul (text : String) : Prop :=
  ∀ byte ∈ asBytes text, byte ≠ 0

instance (text : String) : Decidable (NoNul text) :=
  List.decidableBAll (fun byte => byte ≠ 0) (asBytes text)

variable (order : ByteOrder)

def sintBytes (value : BitVec 64) : List UInt8 :=
  if fitsI32 value then order.toBytes 4 (value.setWidth 32).toNat else order.toBytes 8 value.toNat

theorem emitSintAttr_eq (builder : MessageBuilder) (attrType : Nat) (value : BitVec 64) :
    emitSintAttr order builder attrType value =
      builder.appendAttr order attrType (sintBytes order value) := by
  rw [emitSintAttr, sintBytes]
  split <;> rfl

theorem parseFixed_toBytes {width : Nat} (value : BitVec (8 * width)) :
    parseFixed order width (order.toBytes width value.toNat) = .ok value := by
  have fits : value.toNat < 256 ^ width := by
    rw [show (256 : Nat) = 2 ^ 8 from rfl, ← Nat.pow_mul]
    exact value.isLt
  have long : ¬ (order.toBytes width value.toNat).length < width := by
    rw [ByteOrder.toBytes_length]
    exact Nat.lt_irrefl width
  rw [parseFixed, if_neg long, List.take_of_length_le (Nat.le_of_eq (order.toBytes_length width _)),
    order.ofBytes_toBytes fits, BitVec.ofNat_toNat, BitVec.setWidth_eq]

theorem toInt_setWidth_of_fits {value : BitVec 64} (fits : fitsI32 value = true) :
    (value.setWidth 32).toInt = value.toInt := by
  rw [fitsI32, Bool.and_eq_true, decide_eq_true_eq, decide_eq_true_eq,
    BitVec.toInt_eq_toNat_cond] at fits
  have bound := value.isLt
  rw [BitVec.toInt_eq_toNat_cond, BitVec.toInt_eq_toNat_cond, BitVec.toNat_setWidth]
  split at fits <;> split <;> omega

theorem signExtend_setWidth {value : BitVec 64} (fits : fitsI32 value = true) :
    (value.setWidth 32).signExtend 64 = value := by
  apply BitVec.eq_of_toInt_eq
  rw [BitVec.toInt_signExtend_of_le (by decide), toInt_setWidth_of_fits fits]

theorem parseSintAttrAsI64_sintBytes (value : BitVec 64) :
    parseSintAttrAsI64 order (sintBytes order value) = .ok value := by
  have small : (value.setWidth 32).toNat < 256 ^ 4 := (value.setWidth 32).isLt
  have large : value.toNat < 256 ^ 8 := value.isLt
  rw [sintBytes]
  split
  · rename_i fits
    rw [parseSintAttrAsI64, if_pos (order.toBytes_length 4 _), order.ofBytes_toBytes small,
      BitVec.ofNat_toNat, BitVec.setWidth_eq, signExtend_setWidth fits]
  · have length := order.toBytes_length 8 value.toNat
    rw [parseSintAttrAsI64, if_neg (by omega), if_pos (by omega), List.take_of_length_le
      (Nat.le_of_eq length), order.ofBytes_toBytes large, BitVec.ofNat_toNat, BitVec.setWidth_eq]

theorem fitsI32_signExtend (value : BitVec 32) : fitsI32 (value.signExtend 64) = true := by
  have lower := value.le_toInt
  have upper := value.toInt_lt
  rw [fitsI32, BitVec.toInt_signExtend_of_le (by decide)]
  simp only [Bool.and_eq_true, decide_eq_true_eq]
  omega

theorem parseSintAttrAsI32_sintBytes (value : BitVec 32) :
    parseSintAttrAsI32 order (sintBytes order (value.signExtend 64)) = .ok value := by
  have back : (value.signExtend 64).setWidth 32 = value := by
    apply BitVec.eq_of_toInt_eq
    rw [toInt_setWidth_of_fits (fitsI32_signExtend value),
      BitVec.toInt_signExtend_of_le (by decide)]
  rw [parseSintAttrAsI32, parseSintAttrAsI64_sintBytes]
  change (if _ then _ else _) = _
  rw [if_pos (fitsI32_signExtend value), back]

theorem parseStrAttr_asBytes {text : String} (noNul : NoNul text) :
    parseStrAttr (asBytes text ++ [0]) = .ok text := by
  rw [parseStrAttr, takeWhile_terminated noNul, fromUtf8Lossy, Nftables.fromUtf8_asBytes]

/-!
## Derived messages

The derive classifies the type of each field, with the hints of its attribute,
as a kind of value on the wire.  From the kinds of a struct's fields it writes
`to_bytes`, one emit call for each field, and `from_bytes`, one match arm for
each.  Nested groups are structs of their own, so schemas and kinds are defined
together.
-/

/-- The integers that an enum or a set of flags is written as. -/
inductive ReprWidth where
  | u8
  | u16
  | u32
  deriving DecidableEq

def ReprWidth.bytes : ReprWidth → Nat
  | .u8 => 1
  | .u16 => 2
  | .u32 => 4

/-- An enum with `#[derive(GenlEnum)]`: the discriminants of its variants. -/
structure GenlEnum where
  name : String
  repr : ReprWidth
  discriminants : List Nat
  nonEmpty : 0 < discriminants.length
  distinct : discriminants.Nodup
  fits : ∀ value ∈ discriminants, value < 256 ^ repr.bytes

namespace GenlEnum

abbrev Variant (type : GenlEnum) : Type :=
  Fin type.discriminants.length

/-- The generated `From`. -/
def toRepr (type : GenlEnum) (variant : type.Variant) : BitVec (8 * type.repr.bytes) :=
  BitVec.ofNat _ (type.discriminants.get variant)

/-- The generated `TryFrom`. -/
def tryFrom (type : GenlEnum) (raw : BitVec (8 * type.repr.bytes)) : Except Error type.Variant :=
  match type.discriminants.finIdxOf? raw.toNat with
  | some variant => .ok variant
  | none => .error (.invalidMessage ("unknown " ++ type.name ++ " value: " ++ toString raw.toNat))

end GenlEnum

/-- `Self::bits` and `from_bits_retain` of a set of flags leave its bits as they
are. -/
abbrev Bits (repr : ReprWidth) : Type :=
  BitVec (8 * repr.bytes)

mutual

/-- `WireKind`: what a field is on the wire. -/
inductive WireKind where
  | u8
  | u16
  | u32
  | u64
  | i32
  | i64
  | str
  | bytes
  | enum (type : GenlEnum)
  | repeatedEnum (type : GenlEnum)
  | bitflags (repr : ReprWidth)
  | nested (group : Schema)
  | optional (inner : WireKind)

/-- The `FieldSpec`s of a struct. -/
inductive Schema where
  | nil
  | field (attr : Nat) (kind : WireKind) (sint : Bool) (rest : Schema)

end

mutual

def WireKind.Value : WireKind → Type
  | .u8 => BitVec 8
  | .u16 => BitVec 16
  | .u32 => BitVec 32
  | .u64 => BitVec 64
  | .i32 => BitVec 32
  | .i64 => BitVec 64
  | .str => String
  | .bytes => List UInt8
  | .enum type => type.Variant
  | .repeatedEnum type => List type.Variant
  | .bitflags repr => Bits repr
  | .nested group => group.Value
  | .optional inner => Option inner.Value

/-- The values of a struct: one for each field. -/
def Schema.Value : Schema → Type
  | .nil => Unit
  | .field _ kind _ rest => kind.Value × rest.Value

end

/-- What a field's attribute says besides the attribute's type. -/
structure GenlAttrArgs where
  attr : Nat
  repr : Option ReprWidth
  bitflags : Option ReprWidth
  nested : Bool
  sint : Bool

/-- At most one of the hints is given. -/
def GenlAttrArgs.exclusive (args : GenlAttrArgs) : Bool :=
  args.repr.isSome.toNat + args.bitflags.isSome.toNat + args.nested.toNat + args.sint.toNat ≤ 1

mutual

/-- The types that a field may have.  A named type is what it was declared
as. -/
inductive RustType where
  | u8
  | u16
  | u32
  | u64
  | i32
  | i64
  | string
  | vec (item : RustType)
  | option (inner : RustType)
  | genlEnum (type : GenlEnum)
  | bitflags (repr : ReprWidth)
  | netlinkAttrs (group : Struct)

/-- The annotated fields of a struct. -/
inductive Struct where
  | nil
  | field (args : GenlAttrArgs) (type : RustType) (rest : Struct)

end

/-- Whether the kind is a signed integer, or an optional one. -/
def WireKind.allowsSint : WireKind → Bool
  | .i32 | .i64 | .optional .i32 | .optional .i64 => true
  | _ => false

mutual

/-- `classify_type_inner`.  There is no kind where the derive reports an error,
and none where the code it writes does not compile: a hint of another width
than the type's, and optional lists and flags. -/
def RustType.classify : RustType → GenlAttrArgs → Bool → Option WireKind
  | .u8, _, _ => some .u8
  | .u16, _, _ => some .u16
  | .u32, _, _ => some .u32
  | .u64, _, _ => some .u64
  | .i32, _, _ => some .i32
  | .i64, _, _ => some .i64
  | .string, _, _ => some .str
  | .vec .u8, _, _ => some .bytes
  | .vec (.genlEnum type), args, _ =>
      if args.repr = some type.repr then some (.repeatedEnum type) else none
  | .vec _, _, _ => none
  | .option inner, args, insideOption =>
      if insideOption then
        none
      else
        match inner.classify args true with
        | some (.optional _) => none
        | some (.repeatedEnum _) => none
        | some (.bitflags _) => none
        | some kind => some (.optional kind)
        | none => none
  | .genlEnum type, args, insideOption =>
      if insideOption ∧ args.repr = some type.repr then some (.enum type) else none
  | .bitflags repr, args, _ => if args.bitflags = some repr then some (.bitflags repr) else none
  | .netlinkAttrs group, args, insideOption =>
      if insideOption ∧ args.nested then
        match group with
        | .nil => none
        | .field fieldArgs type rest => (Struct.specs (.field fieldArgs type rest)).map .nested
      else
        none

/-- `parse_field` for each field. -/
def Struct.specs : Struct → Option Schema
  | .nil => some .nil
  | .field args type rest => do
      if args.exclusive then
        let kind ← type.classify args false
        if args.sint && !kind.allowsSint then
          none
        else
          let others ← rest.specs
          return .field args.attr kind args.sint others
      else
        none

end

/-- What the derive makes of a struct; it must have a field. -/
def Struct.expand : Struct → Option Schema
  | .nil => none
  | .field args type rest => Struct.specs (.field args type rest)

section Emit

variable (order : ByteOrder)

/-- `emit_u8_attr`, `emit_u16_attr` or `emit_u32_attr`, by the width. -/
def emitReprAttr (repr : ReprWidth) (builder : MessageBuilder) (attr : Nat)
    (value : Bits repr) : MessageBuilder :=
  match repr with
  | .u8 => emitU8Attr order builder attr value
  | .u16 => emitU16Attr order builder attr value
  | .u32 => emitU32Attr order builder attr value

/-- The emit call of a field marked `sint`. -/
def WireKind.sintEmitCall : (kind : WireKind) → MessageBuilder → Nat → kind.Value → MessageBuilder
  | .i32, builder, attr, value => emitSintAttr order builder attr (BitVec.signExtend 64 value)
  | .i64, builder, attr, value => emitSintAttr order builder attr value
  | .optional .i32, builder, attr, some value =>
      emitSintAttr order builder attr (BitVec.signExtend 64 value)
  | .optional .i64, builder, attr, some value => emitSintAttr order builder attr value
  | _, builder, _, _ => builder

mutual

/-- The emit call of a field, `emit_call` and `emit_call_inner`. -/
def WireKind.emitCall : (kind : WireKind) → MessageBuilder → Nat → kind.Value → MessageBuilder
  | .u8, builder, attr, value => emitU8Attr order builder attr value
  | .u16, builder, attr, value => emitU16Attr order builder attr value
  | .u32, builder, attr, value => emitU32Attr order builder attr value
  | .u64, builder, attr, value => emitU64Attr order builder attr value
  | .i32, builder, attr, value => emitI32Attr order builder attr value
  | .i64, builder, attr, value => emitI64Attr order builder attr value
  | .str, builder, attr, value => emitStrAttr order builder attr value
  | .bytes, builder, attr, value => emitBytesAttr order builder attr value
  | .enum type, builder, attr, value =>
      emitReprAttr order type.repr builder attr (type.toRepr value)
  | .repeatedEnum type, builder, attr, values =>
      List.foldl
        (fun builder value => emitReprAttr order type.repr builder attr (type.toRepr value))
        builder values
  | .bitflags repr, builder, attr, value => emitReprAttr order repr builder attr value
  | .nested group, builder, attr, value =>
      builder.nest order (attr ||| NLA_F_NESTED) fun inner => group.toBytes inner value
  | .optional inner, builder, attr, value =>
      match value with
      | some value => inner.emitCall builder attr value
      | none => builder

/-- The generated `to_bytes`, and `write_attrs` of a group. -/
def Schema.toBytes : (schema : Schema) → MessageBuilder → schema.Value → MessageBuilder
  | .nil, builder, _ => builder
  | .field attr kind sint rest, builder, (value, others) =>
      rest.toBytes
        (if sint then
          kind.sintEmitCall order builder attr value
        else
          kind.emitCall builder attr value)
        others

end

end Emit

section Parse

variable (order : ByteOrder)

/-- `parse_u8_attr`, `parse_u16_attr` or `parse_u32_attr`, by the width. -/
def parseReprAttr (repr : ReprWidth) (payload : List UInt8) : Except Error (Bits repr) :=
  match repr with
  | .u8 => parseU8Attr order payload
  | .u16 => parseU16Attr order payload
  | .u32 => parseU32Attr order payload

def parseVariant (type : GenlEnum) (payload : List UInt8) : Except Error type.Variant := do
  let raw ← parseReprAttr order type.repr payload
  type.tryFrom raw

mutual

/-- What a field holds before its attribute is seen.  Enums and groups are
never bare fields, and the value that stands here for them is not used. -/
def WireKind.default : (kind : WireKind) → kind.Value
  | .u8 => 0#8
  | .u16 => 0#16
  | .u32 => 0#32
  | .u64 => 0#64
  | .i32 => 0#32
  | .i64 => 0#64
  | .str => ""
  | .bytes => ([] : List UInt8)
  | .enum type => (⟨0, type.nonEmpty⟩ : type.Variant)
  | .repeatedEnum type => ([] : List type.Variant)
  | .bitflags repr => (0 : Bits repr)
  | .nested group => group.defaults
  | .optional inner => (none : Option inner.Value)

/-- What the fields hold before the attributes are walked. -/
def Schema.defaults : (schema : Schema) → schema.Value
  | .nil => ()
  | .field _ kind _ rest => (kind.default, rest.defaults)

end

/-- The guard of a field's match arm; a group's ignores the nest bit. -/
def WireKind.guard (kind : WireKind) (attr attrType : Nat) : Bool :=
  match kind with
  | .optional (.nested _) => attrType % NLA_F_NESTED = attr
  | _ => attrType = attr

/-- The match arm of a field marked `sint`. -/
def WireKind.sintParseArm : (kind : WireKind) → kind.Value → List UInt8 → Except Error kind.Value
  | .i32, _, payload => parseSintAttrAsI32 order payload
  | .i64, _, payload => parseSintAttrAsI64 order payload
  | .optional .i32, _, payload => (parseSintAttrAsI32 order payload).map some
  | .optional .i64, _, payload => (parseSintAttrAsI64 order payload).map some
  | _, value, _ => .ok value

mutual

/-- The match arm of a field: its value after an attribute. -/
def WireKind.parseArm : (kind : WireKind) → kind.Value → List UInt8 → Except Error kind.Value
  | .u8, _, payload => parseU8Attr order payload
  | .u16, _, payload => parseU16Attr order payload
  | .u32, _, payload => parseU32Attr order payload
  | .u64, _, payload => parseU64Attr order payload
  | .i32, _, payload => parseI32Attr order payload
  | .i64, _, payload => parseI64Attr order payload
  | .str, _, payload => parseStrAttr payload
  | .bytes, _, payload => parseBytesAttr payload
  | .enum type, _, payload => parseVariant order type payload
  | .repeatedEnum type, values, payload =>
      (parseVariant order type payload).map fun value =>
        (List.append values [value] : List type.Variant)
  | .bitflags repr, _, payload => parseReprAttr order repr payload
  | .nested group, _, payload =>
      (attrIter order payload).foldlM (fun value attr => group.parseAttr value attr) group.defaults
  | .optional inner, _, payload => (inner.parseArm inner.default payload).map some

/-- The generated `match`, for one attribute: the first arm whose guard holds,
and nothing for an unknown attribute. -/
def Schema.parseAttr : (schema : Schema) → schema.Value → Nat × List UInt8 →
      Except Error schema.Value
  | .nil, value, _ => .ok value
  | .field attr kind sint rest, (value, others), (attrType, payload) =>
      if kind.guard attr attrType then
        (if sint then
          kind.sintParseArm order value payload
        else
          kind.parseArm value payload).map
          fun value => (value, others)
      else
        (rest.parseAttr others (attrType, payload)).map fun others => (value, others)

end

/-- The generated `from_bytes`, and `read_attrs` of a group. -/
def Schema.fromBytes (schema : Schema) (payload : List UInt8) : Except Error schema.Value :=
  (attrIter order payload).foldlM
    (fun value attr => schema.parseAttr order value attr) schema.defaults

end Parse

end Nlink.Genl
