import Nlink.NetlinkIterators
import Nlink.NftablesRuleBody
import Nlink.WireguardDump

namespace Nlink.Nftables

open Foundation Netlink List
open Wireguard (getString)

/-!
# Reading a rule's expressions

A dump carries the expressions of a rule as nested attributes.  Each is read into
a typed value, and into its name and its bytes where the types have no room for
it.  The reading is written once for everything that has attributes: for bytes,
and for the parts of a buffer, where it fails if it reaches out of the buffer.
-/

/-- An expression as a dump has it. -/
inductive RuleExpr where
  | counter (packets bytes : Nat)
  | verdict (verdict : Verdict)
  | metaLoad (dreg : Register) (key : MetaKey)
  | cmp (sreg : Register) (op : CmpOp) (data : List UInt8)
  | immediate (dreg : Register) (data : List UInt8)
  | payload (dreg : Register) (base : PayloadBase) (offset len : Nat)
  | unknown (name : String) (data : List UInt8)

def Register.fromU32 : Nat → Option Register
  | 0 => some .verdict
  | 1 => some .r0
  | 2 => some .r1
  | 3 => some .r2
  | 4 => some .r3
  | _ => none

def CmpOp.fromU32 : Nat → Option CmpOp
  | 0 => some .eq
  | 1 => some .neq
  | 2 => some .lt
  | 3 => some .lte
  | 4 => some .gt
  | 5 => some .gte
  | _ => none

def PayloadBase.fromU32 : Nat → Option PayloadBase
  | 0 => some .linkLayer
  | 1 => some .network
  | 2 => some .transport
  | _ => none

def MetaKey.fromU32 : Nat → Option MetaKey
  | 0 => some .len
  | 1 => some .protocol
  | 3 => some .mark
  | 4 => some .iif
  | 5 => some .oif
  | 6 => some .iifName
  | 7 => some .oifName
  | 10 => some .skUid
  | 11 => some .skGid
  | 15 => some .nfProto
  | 16 => some .l4Proto
  | 23 => some .cGroup
  | _ => none

/-- A number in network byte order at the front of bytes; more bytes may follow. -/
def getBe (width : Nat) (data : List UInt8) : Option Nat :=
  if data.length < width then none else some (ByteOrder.big.ofBytes (data.take width))

/-- `get::u32_be`, without its error. -/
def getU32Be (data : List UInt8) : Option Nat :=
  getBe 4 data

/-- `get::u64_be`, without its error. -/
def getU64Be (data : List UInt8) : Option Nat :=
  getBe 8 data

/-- `as i32`. -/
def asI32 (value : Nat) : Int :=
  if value < 2 ^ 31 then value else value - 2 ^ 32

/-- What attributes are read from: the attributes of a part, what a part holds, and
a part that holds nothing. -/
structure Reader (m : Type → Type) (δ : Type) where
  attrs : δ → m (List (Nat × δ))
  bytes : δ → List UInt8
  empty : δ

/-- What a loop over the attributes of a counter has found. -/
structure CounterFields where
  packets : Option Nat := none
  bytes : Option Nat := none

/-- What a loop over the attributes of a metadata load has found. -/
structure MetaFields where
  dreg : Option Register := none
  key : Option MetaKey := none

/-- What a loop over the attributes of a comparison has found. -/
structure CmpFields where
  sreg : Option Register := none
  op : Option CmpOp := none
  value : Option (List UInt8) := none

/-- What a loop over the attributes of a payload load has found. -/
structure PayloadFields where
  dreg : Option Register := none
  base : Option PayloadBase := none
  offset : Option Nat := none
  len : Option Nat := none

/-- What a loop over the attributes of a verdict has found. -/
structure VerdictFields where
  code : Option Int := none
  chain : Option String := none

/-- An attribute of a counter; `none` ends the loop and the decoding. -/
def counterAttr (fields : CounterFields) (attr : Nat × List UInt8) : Option CounterFields :=
  if attr.1 = NFTA_COUNTER_PACKETS then
    (getU64Be attr.2).map fun packets => { fields with packets := some packets }
  else if attr.1 = NFTA_COUNTER_BYTES then
    (getU64Be attr.2).map fun bytes => { fields with bytes := some bytes }
  else
    some fields

/-- An attribute of a metadata load, likewise. -/
def metaAttr (fields : MetaFields) (attr : Nat × List UInt8) : Option MetaFields :=
  if attr.1 = NFTA_META_DREG then
    (getU32Be attr.2).map fun dreg => { fields with dreg := Register.fromU32 dreg }
  else if attr.1 = NFTA_META_KEY then
    (getU32Be attr.2).map fun key => { fields with key := MetaKey.fromU32 key }
  else
    some fields

/-- An attribute of a payload load, likewise. -/
def payloadAttr (fields : PayloadFields) (attr : Nat × List UInt8) : Option PayloadFields :=
  if attr.1 = NFTA_PAYLOAD_DREG then
    (getU32Be attr.2).map fun dreg => { fields with dreg := Register.fromU32 dreg }
  else if attr.1 = NFTA_PAYLOAD_BASE then
    (getU32Be attr.2).map fun base => { fields with base := PayloadBase.fromU32 base }
  else if attr.1 = NFTA_PAYLOAD_OFFSET then
    (getU32Be attr.2).map fun offset => { fields with offset := some offset }
  else if attr.1 = NFTA_PAYLOAD_LEN then
    (getU32Be attr.2).map fun len => { fields with len := some len }
  else
    some fields

/-- An attribute of a verdict, likewise. -/
def verdictAttr (fields : VerdictFields) (attr : Nat × List UInt8) : Option VerdictFields :=
  if attr.1 = NFTA_VERDICT_CODE then
    (getU32Be attr.2).map fun code => { fields with code := some (asI32 code) }
  else if attr.1 = NFTA_VERDICT_CHAIN then
    some { fields with chain := (getString attr.2).toOption }
  else
    some fields

/-- The chain of a jump, if its name is one. -/
def chainOf (name : Option String) : Option ChainName :=
  name.bind fun name => (ChainName.new name).toOption

/-- The counter of attributes, which have one of its numbers at least. -/
def counterOf (attrs : List (Nat × List UInt8)) : Option RuleExpr := do
  let fields ← attrs.foldlM counterAttr {}
  if fields.packets.isNone ∧ fields.bytes.isNone then
    none
  else
    return .counter (fields.packets.getD 0) (fields.bytes.getD 0)

/-- The metadata load of attributes. -/
def metaOf (attrs : List (Nat × List UInt8)) : Option RuleExpr := do
  let fields ← attrs.foldlM metaAttr {}
  return .metaLoad (← fields.dreg) (← fields.key)

def payloadOf (attrs : List (Nat × List UInt8)) : Option RuleExpr := do
  let fields ← attrs.foldlM payloadAttr {}
  return .payload (← fields.dreg) (← fields.base) (← fields.offset) (← fields.len)

def verdictOf (attrs : List (Nat × List UInt8)) : Option Verdict := do
  let fields ← attrs.foldlM verdictAttr {}
  let code ← fields.code
  if code = NF_ACCEPT then
    return .accept
  else if code = NF_DROP then
    return .drop
  else if code = NFT_CONTINUE then
    return .continue
  else if code = NFT_RETURN then
    return .return
  else if code = NFT_JUMP then
    return .jumpTo (← chainOf fields.chain)
  else if code = NFT_GOTO then
    return .gotoTo (← chainOf fields.chain)
  else
    none

/-- The comparison of what has been found. -/
def cmpOf (fields : CmpFields) : Option RuleExpr := do
  return .cmp (← fields.sreg) (← fields.op) (← fields.value)

section Parsing

variable {m : Type → Type} [Monad m] {δ : Type} (reader : Reader m δ)

/-- The attributes of a part with what they hold. -/
def Reader.values (part : δ) : m (List (Nat × List UInt8)) := do
  let attrs ← reader.attrs part
  return attrs.map fun attr => (attr.1, reader.bytes attr.2)

def parseCounter (data : δ) : m (Option RuleExpr) := do
  let attrs ← reader.values data
  return counterOf attrs

def parseMeta (data : δ) : m (Option RuleExpr) := do
  let attrs ← reader.values data
  return metaOf attrs

def parsePayload (data : δ) : m (Option RuleExpr) := do
  let attrs ← reader.values data
  return payloadOf attrs

def parseVerdict (nest : δ) : m (Option Verdict) := do
  let attrs ← reader.values nest
  return verdictOf attrs

/-- The register of an immediate and the nest with its value. -/
def immediateAttr (found : Option Register × δ) (attr : Nat × δ) : Option (Option Register × δ) :=
  if attr.1 = NFTA_IMMEDIATE_DREG then
    (getU32Be (reader.bytes attr.2)).map fun dreg => (Register.fromU32 dreg, found.2)
  else if attr.1 = NFTA_IMMEDIATE_DATA then
    some (found.1, attr.2)
  else
    some found

/-- The first value that goes with the register. -/
def immediateValue (dreg : Register) : List (Nat × δ) → m (Option RuleExpr)
  | [] => return none
  | attr :: rest =>
      if attr.1 = NFTA_DATA_VALUE ∧ dreg ≠ .verdict then
        return some (.immediate dreg (reader.bytes attr.2))
      else if attr.1 = NFTA_DATA_VERDICT ∧ dreg = .verdict then do
        let verdict ← parseVerdict reader attr.2
        return verdict.map .verdict
      else
        immediateValue dreg rest

def parseImmediate (data : δ) : m (Option RuleExpr) := do
  let attrs ← reader.attrs data
  match attrs.foldlM (immediateAttr reader) (none, reader.empty) with
  | some (some dreg, nest) => do
      let inner ← reader.attrs nest
      immediateValue reader dreg inner
  | _ => return none

/-- An attribute of a comparison; the last value of a nest counts. -/
def cmpAttr (fields : CmpFields) (attr : Nat × δ) : m (Option CmpFields) :=
  if attr.1 = NFTA_CMP_SREG then
    return (getU32Be (reader.bytes attr.2)).map fun sreg =>
      { fields with sreg := Register.fromU32 sreg }
  else if attr.1 = NFTA_CMP_OP then
    return (getU32Be (reader.bytes attr.2)).map fun op => { fields with op := CmpOp.fromU32 op }
  else if attr.1 = NFTA_CMP_DATA then do
    let inner ← reader.values attr.2
    return some
      { fields with
        value := inner.foldl
          (fun value attr => if attr.1 = NFTA_DATA_VALUE then some attr.2 else value)
          fields.value }
  else
    return some fields

/-- The loop over the attributes of a comparison. -/
def cmpAttrs (fields : CmpFields) : List (Nat × δ) → m (Option CmpFields)
  | [] => return some fields
  | attr :: rest => do
      match ← cmpAttr reader fields attr with
      | some fields => cmpAttrs fields rest
      | none => return none

def parseCmp (data : δ) : m (Option RuleExpr) := do
  let attrs ← reader.attrs data
  let found ← cmpAttrs reader {} attrs
  return found.bind cmpOf

/-- One expression; what is not decoded is kept as bytes. -/
def parseExpr (name : String) (data : δ) : m RuleExpr := do
  let decoded ←
    if name = "counter" then parseCounter reader data
    else if name = "immediate" then parseImmediate reader data
    else if name = "meta" then parseMeta reader data
    else if name = "cmp" then parseCmp reader data
    else if name = "payload" then parsePayload reader data
    else pure none
  return decoded.getD (.unknown name (reader.bytes data))

def elementAttr (found : Option String × δ) (attr : Nat × δ) : Option String × δ :=
  if attr.1 = NFTA_EXPR_NAME then
    ((getString (reader.bytes attr.2)).toOption, found.2)
  else if attr.1 = NFTA_EXPR_DATA then
    (found.1, attr.2)
  else
    found

/-- One attribute of the list; an element without a name is skipped. -/
def parseElement (attr : Nat × δ) : m (Option RuleExpr) :=
  if attr.1 ≠ NFTA_LIST_ELEM then
    return none
  else do
    let attrs ← reader.attrs attr.2
    match attrs.foldl (elementAttr reader) (none, reader.empty) with
    | (some name, data) => do
        let expr ← parseExpr reader name data
        return some expr
    | (none, _) => return none

/-- The loop over the list. -/
def parseElements : List (Nat × δ) → m (List RuleExpr)
  | [] => return []
  | attr :: rest => do
      let expr ← parseElement reader attr
      let exprs ← parseElements rest
      return expr.toList ++ exprs

def parseExpressions (data : δ) : m (List RuleExpr) := do
  let attrs ← reader.attrs data
  parseElements reader attrs

end Parsing

def bytesReader (order : ByteOrder) : Reader Id (List UInt8) where
  attrs := attrIter order
  bytes := id
  empty := []

/-- A slice of a buffer. -/
structure Part (buffer : List UInt8) where
  slice : Slice
  inside : slice.stop ≤ buffer.length

namespace Part

variable {buffer : List UInt8}

/-- A slice, if it is inside of the buffer. -/
def of? (buffer : List UInt8) (slice : Slice) : Option (Part buffer) :=
  if inside : slice.stop ≤ buffer.length then some ⟨slice, inside⟩ else none

def whole (buffer : List UInt8) : Part buffer :=
  ⟨Slice.whole buffer, Nat.le_of_eq (Nat.zero_add _)⟩

/-- The slice without anything. -/
def empty (buffer : List UInt8) : Part buffer :=
  ⟨Slice.empty, Nat.zero_le _⟩

/-- The attributes of a slice.  There are none if the iterator panics, if it is not
at its end after as many calls as there are bytes, or if one of the payloads is
not inside of the buffer. -/
def attrs (order : ByteOrder) (address : Nat) (part : Part buffer) :
    Option (List (Nat × Part buffer)) := do
  let next := AttrIter.next order address buffer
  let (found, last) ← drain next (part.slice.len + 1) part.slice
  if next last = some (none, last) then
    found.mapM fun attr => (of? buffer attr.2).map fun payload => (attr.1, payload)
  else
    none

/-- The attributes of slices of a buffer at an address. -/
def reader (order : ByteOrder) (address : Nat) (buffer : List UInt8) :
    Reader Option (Part buffer) where
  attrs := attrs order address
  bytes part := part.slice.bytes buffer
  empty := empty buffer

end Part

open Wireguard (getString getString_asBytes)

/-!
## What is written is read back

The attributes of an expression are read level by level.  Each expression that has
a typed value is read as it, and the others as their names and bytes.
-/

theorem Register.fromU32_toU32 (register : Register) :
    Register.fromU32 register.toU32 = some register := by
  cases register <;> rfl

theorem CmpOp.fromU32_toU32 (op : CmpOp) : CmpOp.fromU32 op.toU32 = some op := by
  cases op <;> rfl

theorem PayloadBase.fromU32_toU32 (base : PayloadBase) :
    PayloadBase.fromU32 base.toU32 = some base := by
  cases base <;> rfl

theorem MetaKey.fromU32_toU32 (key : MetaKey) : MetaKey.fromU32 key.toU32 = some key := by
  cases key <;> rfl

theorem getBe_toBytes {width value : Nat} (fits : value < 256 ^ width) :
    getBe width (ByteOrder.big.toBytes width value) = some value := by
  have length := ByteOrder.big.toBytes_length width value
  rw [getBe, if_neg (Nat.not_lt.mpr (Nat.le_of_eq length.symm)),
    take_of_length_le (Nat.le_of_eq length), ByteOrder.big.ofBytes_toBytes fits]

theorem getU32Be_toBytes {value : Nat} (fits : value < 2 ^ 32) :
    getU32Be (ByteOrder.big.toBytes 4 value) = some value :=
  getBe_toBytes fits

theorem getU64Be_toBytes {value : Nat} (fits : value < 2 ^ 64) :
    getU64Be (ByteOrder.big.toBytes 8 value) = some value :=
  getBe_toBytes fits

theorem Register.toU32_lt (register : Register) : register.toU32 < 2 ^ 32 := by
  cases register <;> decide

theorem CmpOp.toU32_lt (op : CmpOp) : op.toU32 < 2 ^ 32 := by
  cases op <;> decide

theorem PayloadBase.toU32_lt (base : PayloadBase) : base.toU32 < 2 ^ 32 := by
  cases base <;> decide

theorem MetaKey.toU32_lt (key : MetaKey) : key.toU32 < 2 ^ 32 := by
  cases key <;> decide

section Levels

variable {order : ByteOrder} {attrs inner rest : Attrs}

/-- Attributes of different types that are short as a whole all fit. -/
theorem Attrs.Distinct.fits (distinct : attrs.Distinct)
    (short : (attrs.encode order).length < 65536) : attrs.Fits order := by
  induction attrs with
  | nil => trivial
  | leaf attrType payload rest ih =>
      obtain ⟨small, _, restDistinct⟩ := distinct
      have payloadShort := Attrs.short_payload order short
      refine ⟨small, ?_, ih restDistinct (Attrs.short_rest short)⟩
      rw [NLA_HDRLEN]
      omega
  | nest attrType inner rest innerFits ih =>
      obtain ⟨small, _, innerDistinct, restDistinct⟩ := distinct
      have innerShort := Attrs.short_payload order short
      refine ⟨small, ?_, innerFits innerDistinct ?_, ih restDistinct (Attrs.short_rest short)⟩
      · rw [NLA_HDRLEN]
        omega
      · exact Nat.lt_of_le_of_lt (Nat.le_add_right _ 4) innerShort

theorem bytesReader_values (data : List UInt8) :
    (bytesReader order).values data = attrIter order data :=
  map_id _

theorem values_encode (fits : attrs.Fits order) :
    (bytesReader order).values (attrs.encode order) = attrs.level order := by
  rw [bytesReader_values, Attrs.attrIter_encode order fits]

end Levels

section Kinds

theorem metaOf_written (dreg : Register) (key : MetaKey) :
    metaOf
        [(NFTA_META_DREG, ByteOrder.big.toBytes 4 dreg.toU32),
          (NFTA_META_KEY, ByteOrder.big.toBytes 4 key.toU32)] =
      some (.metaLoad dreg key) := by
  have isDreg := getU32Be_toBytes dreg.toU32_lt
  have isKey := getU32Be_toBytes key.toU32_lt
  simp [metaOf, metaAttr, NFTA_META_DREG, NFTA_META_KEY, isDreg, isKey, Register.fromU32_toU32,
    MetaKey.fromU32_toU32]

theorem payloadOf_written (dreg : Register) (base : PayloadBase) {offset len : Nat}
    (offsetFits : offset < 2 ^ 32) (lenFits : len < 2 ^ 32) :
    payloadOf
        [(NFTA_PAYLOAD_DREG, ByteOrder.big.toBytes 4 dreg.toU32),
          (NFTA_PAYLOAD_BASE, ByteOrder.big.toBytes 4 base.toU32),
          (NFTA_PAYLOAD_OFFSET, ByteOrder.big.toBytes 4 offset),
          (NFTA_PAYLOAD_LEN, ByteOrder.big.toBytes 4 len)] =
      some (.payload dreg base offset len) := by
  have isDreg := getU32Be_toBytes dreg.toU32_lt
  have isBase := getU32Be_toBytes base.toU32_lt
  have isOffset := getU32Be_toBytes offsetFits
  have isLen := getU32Be_toBytes lenFits
  simp [payloadOf, payloadAttr, NFTA_PAYLOAD_DREG, NFTA_PAYLOAD_BASE, NFTA_PAYLOAD_OFFSET,
    NFTA_PAYLOAD_LEN, isDreg, isBase, isOffset, isLen, Register.fromU32_toU32,
    PayloadBase.fromU32_toU32]

theorem counterOf_written :
    counterOf
        [(NFTA_COUNTER_BYTES, ByteOrder.big.toBytes 8 0),
          (NFTA_COUNTER_PACKETS, ByteOrder.big.toBytes 8 0)] =
      some (.counter 0 0) := by
  have isZero := @getU64Be_toBytes 0 (by decide)
  simp [counterOf, counterAttr, NFTA_COUNTER_BYTES, NFTA_COUNTER_PACKETS, isZero]

theorem asI32_code (verdict : Verdict) : asI32 (verdict.code % 2 ^ 32).toNat = verdict.code := by
  cases verdict <;> rfl

theorem nul_of_utf8EncodeChar {char : Char} (member : 0 ∈ String.utf8EncodeChar char) :
    char = '\x00' := by
  have isZero : ∀ value : Nat, (0 : UInt8) = UInt8.ofNat value ↔ value % 256 = 0 := by
    intro value
    rw [← UInt8.toNat_inj, UInt8.toNat_ofNat']
    exact eq_comm
  unfold String.utf8EncodeChar at member
  dsimp only at member
  split at member
  · rename_i short
    rw [mem_singleton, isZero] at member
    apply Char.ext
    apply UInt32.toNat_inj.mp
    change char.val.toNat = 0
    omega
  · exfalso
    split at member
    · simp only [mem_cons, not_mem_nil, or_false, isZero] at member
      omega
    · split at member <;>
        simp only [mem_cons, not_mem_nil, or_false, isZero] at member <;>
        omega

theorem noNul_asBytes {name : String} (terminated : '\x00' ∉ name.toList) :
    ∀ byte ∈ asBytes name, byte ≠ 0 := by
  rintro byte member rfl
  have isEncoded : asBytes name = name.toList.flatMap String.utf8EncodeChar := by
    rw [asBytes, String.toUTF8, ← String.utf8Encode_toList, List.utf8Encode, data_toByteArray]
  rw [isEncoded, mem_flatMap] at member
  obtain ⟨char, isChar, member⟩ := member
  exact terminated (nul_of_utf8EncodeChar member ▸ isChar)
theorem getString_chain (chain : ChainName) :
    getString (asBytes chain.value ++ [0]) = .ok chain.value :=
  getString_asBytes (noNul_asBytes chain.valid.terminated)

theorem chainOf_value (chain : ChainName) : chainOf (some chain.value) = some chain := by
  rw [chainOf, Option.bind_some, ChainName.new_of_valid chain.valid]
  rfl

theorem verdictOf_written (verdict : Verdict) {order : ByteOrder} :
    verdictOf (verdict.attrs.level order) = some verdict := by
  have codeFits : (verdict.code % 2 ^ 32).toNat < 2 ^ 32 := by
    have positive := Int.emod_nonneg verdict.code (show (2 ^ 32 : Int) ≠ 0 by decide)
    have small := Int.emod_lt_of_pos verdict.code (show (0 : Int) < 2 ^ 32 by decide)
    omega
  have isCode : verdictAttr {} (NFTA_VERDICT_CODE,
      ByteOrder.big.toBytes 4 (verdict.code % 2 ^ 32).toNat) = some { code := verdict.code } := by
    rw [verdictAttr, if_pos rfl, getU32Be_toBytes codeFits, Option.map_some, asI32_code]
  have isChain : ∀ (fields : VerdictFields) (chain : ChainName),
      verdictAttr fields (NFTA_VERDICT_CHAIN, asBytes chain.value ++ [0]) =
        some { fields with chain := some chain.value } := by
    intro fields chain
    rw [verdictAttr, if_neg (show NFTA_VERDICT_CHAIN ≠ NFTA_VERDICT_CODE by decide), if_pos rfl,
      getString_chain]
    rfl
  cases verdict with
  | jumpTo chain =>
      simp only [Verdict.attrs, Attrs.be, Attrs.str, Attrs.leaf_append, Attrs.nil_append,
        Attrs.level, verdictOf, foldlM_cons, foldlM_nil, isCode, isChain]
      simp [Verdict.code, chainOf_value, NFT_JUMP, NF_ACCEPT, NF_DROP, NFT_CONTINUE, NFT_RETURN]
  | gotoTo chain =>
      simp only [Verdict.attrs, Attrs.be, Attrs.str, Attrs.leaf_append, Attrs.nil_append,
        Attrs.level, verdictOf, foldlM_cons, foldlM_nil, isCode, isChain]
      simp [Verdict.code, chainOf_value, NFT_JUMP, NFT_GOTO, NF_ACCEPT, NF_DROP, NFT_CONTINUE,
        NFT_RETURN]
  | _ =>
      simp only [Verdict.attrs, Attrs.be, Attrs.leaf_append, Attrs.nil_append, Attrs.level,
        verdictOf, foldlM_cons, foldlM_nil, isCode]
      rfl

end Kinds

section Expressions

variable {order : ByteOrder}

theorem attrs_encode {attrs : Attrs} (fits : attrs.Fits order) :
    (bytesReader order).attrs (attrs.encode order) = attrs.level order :=
  Attrs.attrIter_encode order fits

theorem parseMeta_bytes (data : List UInt8) :
    parseMeta (bytesReader order) data = metaOf (attrIter order data) := by
  rw [← bytesReader_values]
  rfl

theorem parsePayload_bytes (data : List UInt8) :
    parsePayload (bytesReader order) data = payloadOf (attrIter order data) := by
  rw [← bytesReader_values]
  rfl

theorem parseCounter_bytes (data : List UInt8) :
    parseCounter (bytesReader order) data = counterOf (attrIter order data) := by
  rw [← bytesReader_values]
  rfl

theorem parseVerdict_bytes (data : List UInt8) :
    parseVerdict (bytesReader order) data = verdictOf (attrIter order data) := by
  rw [← bytesReader_values]
  rfl

variable {data : Attrs} {dreg : Register}

theorem parseMeta_written {key : MetaKey}
    (isData : (Expr.metaLoad dreg key).data = some data) (fits : data.Fits order) :
    parseMeta (bytesReader order) (data.encode order) = some (.metaLoad dreg key) := by
  cases isData
  rw [parseMeta_bytes, Attrs.attrIter_encode order fits]
  exact metaOf_written dreg key

theorem parsePayload_written {base : PayloadBase} {offset len : Nat}
    (isData : (Expr.payload dreg base offset len).data = some data)
    (fits : data.Fits order)
    (offsetFits : offset < 2 ^ 32) (lenFits : len < 2 ^ 32) :
    parsePayload (bytesReader order) (data.encode order) =
      some (.payload dreg base offset len) := by
  cases isData
  rw [parsePayload_bytes, Attrs.attrIter_encode order fits]
  exact payloadOf_written dreg base offsetFits lenFits

theorem parseCounter_written (isData : Expr.counter.data = some data) (fits : data.Fits order) :
    parseCounter (bytesReader order) (data.encode order) = some (.counter 0 0) := by
  cases isData
  rw [parseCounter_bytes, Attrs.attrIter_encode order fits]
  exact counterOf_written

/-- An immediate's register and the nest that follows it. -/
theorem parseImmediate_encode {inner : Attrs} (fits : (Attrs.be 4 NFTA_IMMEDIATE_DREG dreg.toU32 ++
      .nest NFTA_IMMEDIATE_DATA inner .nil).Fits order) :
    parseImmediate (bytesReader order)
        ((Attrs.be 4 NFTA_IMMEDIATE_DREG dreg.toU32 ++
          .nest NFTA_IMMEDIATE_DATA inner .nil).encode order) =
      immediateValue (bytesReader order) dreg (inner.level order) := by
  have isDreg := getU32Be_toBytes dreg.toU32_lt
  have level := attrs_encode fits
  have innerLevel := attrs_encode fits.2.2.2.2.1
  have found : ((Attrs.be 4 NFTA_IMMEDIATE_DREG dreg.toU32 ++
      .nest NFTA_IMMEDIATE_DATA inner .nil).level order).foldlM
        (immediateAttr (bytesReader order)) (none, (bytesReader order).empty) =
      some (some dreg, inner.encode order) := by
    simp [Attrs.be, Attrs.leaf_append, Attrs.nil_append, Attrs.level, immediateAttr, bytesReader,
      NFTA_IMMEDIATE_DREG, NFTA_IMMEDIATE_DATA, isDreg, Register.fromU32_toU32]
  rw [parseImmediate, level]
  dsimp only [bind]
  rw [found]
  dsimp only
  rw [innerLevel]

theorem parseImmediate_written {bytes : List UInt8}
    (isData : (Expr.immediate dreg bytes).data = some data) (fits : data.Fits order)
    (notVerdict : dreg ≠ .verdict) :
    parseImmediate (bytesReader order) (data.encode order) = some (.immediate dreg bytes) := by
  cases isData
  rw [parseImmediate_encode fits]
  exact if_pos ⟨rfl, notVerdict⟩

theorem parseImmediate_verdict {verdict : Verdict}
    (isData : (Expr.verdict verdict).data = some data) (fits : data.Fits order) :
    parseImmediate (bytesReader order) (data.encode order) = some (.verdict verdict) := by
  cases isData
  have verdictFits : verdict.attrs.Fits order := fits.2.2.2.2.1.2.2.1
  have isVerdict :
      parseVerdict (bytesReader order) (verdict.attrs.encode order) = some verdict := by
    rw [parseVerdict_bytes, Attrs.attrIter_encode order verdictFits, verdictOf_written]
  rw [parseImmediate_encode fits, Attrs.level, immediateValue, if_neg (fun both => both.2 rfl),
    if_pos ⟨rfl, rfl⟩, isVerdict]
  rfl

theorem cmpAttr_sreg (fields : CmpFields) (sreg : Register) :
    cmpAttr (bytesReader order) fields (NFTA_CMP_SREG, ByteOrder.big.toBytes 4 sreg.toU32) =
      some { fields with sreg := some sreg } := by
  rw [cmpAttr, if_pos rfl]
  change (getU32Be (ByteOrder.big.toBytes 4 sreg.toU32)).map _ = _
  rw [getU32Be_toBytes sreg.toU32_lt, Option.map_some, Register.fromU32_toU32]

theorem cmpAttr_op (fields : CmpFields) (op : CmpOp) :
    cmpAttr (bytesReader order) fields (NFTA_CMP_OP, ByteOrder.big.toBytes 4 op.toU32) =
      some { fields with op := some op } := by
  rw [cmpAttr, if_neg (show NFTA_CMP_OP ≠ NFTA_CMP_SREG by decide), if_pos rfl]
  change (getU32Be (ByteOrder.big.toBytes 4 op.toU32)).map _ = _
  rw [getU32Be_toBytes op.toU32_lt, Option.map_some, CmpOp.fromU32_toU32]

theorem cmpAttr_data (fields : CmpFields) {value : List UInt8}
    (fits : (Attrs.leaf NFTA_DATA_VALUE value .nil).Fits order) :
    cmpAttr (bytesReader order) fields
        (NFTA_CMP_DATA, (Attrs.leaf NFTA_DATA_VALUE value .nil).encode order) =
      some { fields with value := some value } := by
  rw [cmpAttr, if_neg (show NFTA_CMP_DATA ≠ NFTA_CMP_SREG by decide),
    if_neg (show NFTA_CMP_DATA ≠ NFTA_CMP_OP by decide), if_pos rfl, values_encode fits]
  rfl

theorem parseCmp_written {sreg : Register} {op : CmpOp} {value : List UInt8}
    (isData : (Expr.cmp sreg op value).data = some data) (fits : data.Fits order) :
    parseCmp (bytesReader order) (data.encode order) = some (.cmp sreg op value) := by
  cases isData
  have level := attrs_encode fits
  have sregRead := @cmpAttr_sreg order {} sreg
  have opRead := @cmpAttr_op order { sreg := some sreg } op
  have dataRead := @cmpAttr_data order { sreg := some sreg, op := some op } value fits.2.2.2.2.2.2.1
  have found : cmpAttrs (bytesReader order) {}
      [(NFTA_CMP_SREG, ByteOrder.big.toBytes 4 sreg.toU32),
        (NFTA_CMP_OP, ByteOrder.big.toBytes 4 op.toU32),
        (NFTA_CMP_DATA, (Attrs.leaf NFTA_DATA_VALUE value .nil).encode order)] =
      some { sreg := some sreg, op := some op, value := some value } := by
    rw [cmpAttrs, sregRead]
    dsimp only [bind]
    rw [cmpAttrs, opRead]
    dsimp only [bind]
    rw [cmpAttrs, dataRead]
    rfl
  rw [parseCmp, level]
  exact congrArg (Option.bind · cmpOf) found

/-- The bytes under an expression's name. -/
def Expr.dataBytes (order : ByteOrder) (expr : Expr) : List UInt8 :=
  (expr.data.map (Attrs.encode order)).getD []

/-- What an expression is read back as: its value, or its name and its bytes. -/
def Expr.decoded (order : ByteOrder) : Expr → RuleExpr
  | .metaLoad dreg key => .metaLoad dreg key
  | .cmp sreg op data => .cmp sreg op data
  | .payload dreg base offset len => .payload dreg base offset len
  | .immediate dreg data => .immediate dreg data
  | .verdict target => .verdict target
  | .counter => .counter 0 0
  | expr => .unknown expr.name (expr.dataBytes order)

/-- The numbers of an expression are of the widths that its types have. -/
def Expr.Typed : Expr → Prop
  | .payload _ _ offset len => offset < 2 ^ 32 ∧ len < 2 ^ 32
  | _ => True

/-- The register of an immediate is not that of verdicts. -/
def Expr.LoadsData : Expr → Prop
  | .immediate dreg _ => dreg ≠ .verdict
  | _ => True

theorem parseExpr_of_decoded {name : String} {data : List UInt8} {expr : RuleExpr}
    {parse : List UInt8 → Option RuleExpr} (parsed : parse data = some expr)
    (isParser : parseExpr (bytesReader order) name data = (parse data).getD (.unknown name data)) :
    parseExpr (bytesReader order) name data = expr := by
  rw [isParser, parsed, Option.getD_some]

variable {expr : Expr}

theorem parseExpr_written (typed : expr.Typed) (loadsData : expr.LoadsData)
    (fits : ∀ data, expr.data = some data → data.Fits order) :
    parseExpr (bytesReader order) expr.name (expr.dataBytes order) = expr.decoded order := by
  cases expr with
  | metaLoad dreg key => exact parseExpr_of_decoded (parseMeta_written rfl (fits _ rfl)) rfl
  | cmp sreg op data => exact parseExpr_of_decoded (parseCmp_written rfl (fits _ rfl)) rfl
  | payload dreg base offset len =>
      exact parseExpr_of_decoded (parsePayload_written rfl (fits _ rfl) typed.1 typed.2) rfl
  | immediate dreg data =>
      exact parseExpr_of_decoded (parseImmediate_written rfl (fits _ rfl) loadsData) rfl
  | verdict target => exact parseExpr_of_decoded (parseImmediate_verdict rfl (fits _ rfl)) rfl
  | counter => exact parseExpr_of_decoded (parseCounter_written rfl (fits _ rfl)) rfl
  | _ => rfl

/-- The attributes of an expression fit if the element that holds them does. -/
theorem Expr.attrs_fits (short : (writeExpr order ⟨[]⟩ expr).buf.length < 65536) :
    (Attrs.nest NFTA_LIST_ELEM expr.attrs .nil).Fits order := by
  rw [writeExpr_buf] at short
  exact Attrs.Distinct.fits ⟨by decide, not_mem_nil, expr.attrs_distinct, trivial⟩ short

theorem Expr.data_fits (fits : expr.attrs.Fits order)
    (isData : expr.data = some data) : data.Fits order := by
  rw [Expr.attrs, isData] at fits
  exact fits.2.2.2.2.1

theorem getString_name (expr : Expr) : getString (asBytes expr.name ++ [0]) = .ok expr.name := by
  have named : ∀ name ∈ exprNames, ∀ byte ∈ asBytes name, byte ≠ 0 := by decide +kernel
  exact getString_asBytes (named _ (name_mem_exprNames expr))

/-- The name and the data that are found in an element. -/
theorem foldl_elementAttr (expr : Expr) :
    (expr.attrs.level order).foldl (elementAttr (bytesReader order))
        (none, (bytesReader order).empty) =
      (some expr.name, expr.dataBytes order) := by
  have isName : (getString ((bytesReader order).bytes (asBytes expr.name ++ [0]))).toOption =
      some expr.name := by
    change (getString (asBytes expr.name ++ [0])).toOption = _
    rw [getString_name]
    rfl
  rw [Expr.attrs, Expr.dataBytes]
  cases expr.data with
  | none =>
      change elementAttr (bytesReader order) _ (NFTA_EXPR_NAME, asBytes expr.name ++ [0]) = _
      rw [elementAttr, if_pos rfl, isName]
      rfl
  | some data =>
      change elementAttr (bytesReader order)
        (elementAttr (bytesReader order) _ (NFTA_EXPR_NAME, asBytes expr.name ++ [0]))
        (NFTA_EXPR_DATA, data.encode order) = _
      rw [elementAttr, elementAttr, if_pos rfl, isName]
      rfl

/-- An element that was written is read back. -/
theorem parseElement_written (typed : expr.Typed) (loadsData : expr.LoadsData)
    (fits : expr.attrs.Fits order) :
    parseElement (bytesReader order) (NFTA_LIST_ELEM, expr.attrs.encode order) =
      some (expr.decoded order) := by
  have parsed := parseExpr_written typed loadsData fun data => Expr.data_fits fits
  rw [parseElement, if_neg (not_not.mpr rfl), attrs_encode fits]
  dsimp only [bind]
  rw [foldl_elementAttr]
  dsimp only
  rw [parsed]
  rfl

def elements : List Expr → Attrs
  | [] => .nil
  | expr :: exprs => .nest NFTA_LIST_ELEM expr.attrs (elements exprs)

theorem encode_elements (exprs : List Expr) :
    (elements exprs).encode order = expressionBytes order exprs := by
  induction exprs with
  | nil => rfl
  | cons expr exprs ih =>
      rw [elements, Attrs.encode, ih, expressionBytes, expressionBytes, flatMap_cons,
        writeExpr_buf, Attrs.encode, Attrs.encode, List.append_nil]

variable {exprs : List Expr}

theorem elements_fits
    (short : ∀ expr ∈ exprs, (writeExpr order ⟨[]⟩ expr).buf.length < 65536) :
    (elements exprs).Fits order := by
  induction exprs with
  | nil => trivial
  | cons expr exprs ih =>
      obtain ⟨shortFirst, shortRest⟩ := forall_mem_cons.mp short
      obtain ⟨small, lengthFits, attrsFit, -⟩ := Expr.attrs_fits shortFirst
      exact ⟨small, lengthFits, attrsFit, ih shortRest⟩

/-- The loop over the elements that were written. -/
theorem parseElements_written (fits : (elements exprs).Fits order)
    (typed : ∀ expr ∈ exprs, expr.Typed) (loadsData : ∀ expr ∈ exprs, expr.LoadsData) :
    parseElements (bytesReader order) ((elements exprs).level order) =
      exprs.map (Expr.decoded order) := by
  induction exprs with
  | nil => rfl
  | cons expr exprs ih =>
      obtain ⟨-, -, attrsFit, restFit⟩ := fits
      obtain ⟨typedFirst, typedRest⟩ := forall_mem_cons.mp typed
      obtain ⟨loadsFirst, loadsRest⟩ := forall_mem_cons.mp loadsData
      rw [elements, Attrs.level, parseElements, parseElement_written typedFirst loadsFirst attrsFit]
      dsimp only [bind]
      rw [ih restFit typedRest loadsRest]
      rfl

theorem parseExpressions_written
    (short : ∀ expr ∈ exprs, (writeExpr order ⟨[]⟩ expr).buf.length < 65536)
    (typed : ∀ expr ∈ exprs, expr.Typed) (loadsData : ∀ expr ∈ exprs, expr.LoadsData) :
    parseExpressions (bytesReader order) (expressionBytes order exprs) =
      exprs.map (Expr.decoded order) := by
  have fits := elements_fits short
  rw [parseExpressions, ← encode_elements, attrs_encode fits]
  exact parseElements_written fits typed loadsData

end Expressions

end Nlink.Nftables
