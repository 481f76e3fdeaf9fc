import Nlink.NftablesAttrs
import Nlink.NftablesTypes

namespace Nlink.Nftables

open Foundation Netlink Attrs
open List hiding set

/-!
# Writing a rule's expressions

A rule's expressions are a list of nested attributes, each with the name of
the expression and its data.  The bytes that one expression adds to a message
do not depend on what the message already holds, so that the payload which a
diff computes in a scratch message is the payload that a transaction sends.
-/

def NFTA_LIST_ELEM : Nat := 1
def NFTA_EXPR_NAME : Nat := 1
def NFTA_EXPR_DATA : Nat := 2
def NFTA_META_DREG : Nat := 1
def NFTA_META_KEY : Nat := 2
def NFTA_CMP_SREG : Nat := 1
def NFTA_CMP_OP : Nat := 2
def NFTA_CMP_DATA : Nat := 3
def NFTA_PAYLOAD_DREG : Nat := 1
def NFTA_PAYLOAD_BASE : Nat := 2
def NFTA_PAYLOAD_OFFSET : Nat := 3
def NFTA_PAYLOAD_LEN : Nat := 4
def NFTA_IMMEDIATE_DREG : Nat := 1
def NFTA_IMMEDIATE_DATA : Nat := 2
def NFTA_DATA_VALUE : Nat := 1
def NFTA_DATA_VERDICT : Nat := 2
def NFTA_VERDICT_CODE : Nat := 1
def NFTA_VERDICT_CHAIN : Nat := 2
def NFTA_COUNTER_BYTES : Nat := 1
def NFTA_COUNTER_PACKETS : Nat := 2
def NFTA_BITWISE_SREG : Nat := 1
def NFTA_BITWISE_DREG : Nat := 2
def NFTA_BITWISE_LEN : Nat := 3
def NFTA_BITWISE_MASK : Nat := 4
def NFTA_BITWISE_XOR : Nat := 5
def NFTA_BITWISE_OP : Nat := 6
def NFT_BITWISE_BOOL : Nat := 0
def NFTA_CT_DREG : Nat := 1
def NFTA_CT_KEY : Nat := 2
def NFTA_LIMIT_RATE : Nat := 1
def NFTA_LIMIT_UNIT : Nat := 2
def NFTA_LIMIT_BURST : Nat := 3
def NFTA_LIMIT_TYPE : Nat := 4
def NFTA_NAT_TYPE : Nat := 1
def NFTA_NAT_FAMILY : Nat := 2
def NFTA_NAT_REG_ADDR_MIN : Nat := 3
def NFTA_NAT_REG_ADDR_MAX : Nat := 4
def NFTA_NAT_REG_PROTO_MIN : Nat := 5
def NFTA_NAT_REG_PROTO_MAX : Nat := 6
def NFTA_NAT_FLAGS : Nat := 7
def NF_NAT_RANGE_MAP_IPS : Nat := 1
def NF_NAT_RANGE_PROTO_SPECIFIED : Nat := 2
def NFTA_REDIR_REG_PROTO_MIN : Nat := 1
def NFTA_REDIR_REG_PROTO_MAX : Nat := 2
def NFTA_REDIR_FLAGS : Nat := 3
def NFTA_REJECT_TYPE : Nat := 1
def NFTA_REJECT_ICMP_CODE : Nat := 2
def NFTA_LOG_PREFIX : Nat := 1
def NFTA_LOG_GROUP : Nat := 2
def NFTA_LOOKUP_SET : Nat := 1
def NFTA_LOOKUP_SREG : Nat := 2
def NFTA_FLOWTABLE_NAME : Nat := 2
def NFTA_RULE_TABLE : Nat := 1
def NFTA_RULE_CHAIN : Nat := 2
def NFTA_RULE_HANDLE : Nat := 3
def NFTA_RULE_EXPRESSIONS : Nat := 4
def NFTA_RULE_POSITION : Nat := 6

def NF_DROP : Int := 0
def NF_ACCEPT : Int := 1
def NFT_CONTINUE : Int := -1
def NFT_JUMP : Int := -3
def NFT_GOTO : Int := -4
def NFT_RETURN : Int := -5

def Verdict.code : Verdict → Int
  | .accept => NF_ACCEPT
  | .drop => NF_DROP
  | .continue => NFT_CONTINUE
  | .return => NFT_RETURN
  | .jumpTo _ => NFT_JUMP
  | .gotoTo _ => NFT_GOTO

section Writing

variable (order : ByteOrder)

/-- The name of an expression and its nested data. -/
def writeNamed (builder : MessageBuilder) (name : String)
    (data : MessageBuilder → MessageBuilder) : MessageBuilder :=
  (builder.appendAttrStr order NFTA_EXPR_NAME name).nest order
    (NFTA_EXPR_DATA ||| NLA_F_NESTED) data

def writeDataValue (builder : MessageBuilder) (attrType : Nat) (data : List UInt8) :
    MessageBuilder :=
  builder.nest order (attrType ||| NLA_F_NESTED) fun builder =>
    builder.appendAttr order NFTA_DATA_VALUE data

def writeVerdictExpr (builder : MessageBuilder) (verdict : Verdict) :
    MessageBuilder :=
  writeNamed order builder "immediate" fun builder =>
    (builder.appendAttrU32Be order NFTA_IMMEDIATE_DREG
      Register.verdict.toU32).nest order (NFTA_IMMEDIATE_DATA ||| NLA_F_NESTED)
      fun builder =>
        builder.nest order (NFTA_DATA_VERDICT ||| NLA_F_NESTED) fun builder =>
          let builder := builder.appendAttrU32Be order NFTA_VERDICT_CODE
            (verdict.code % 2 ^ 32).toNat
          match verdict with
          | .jumpTo chain | .gotoTo chain =>
              builder.appendAttrStr order NFTA_VERDICT_CHAIN chain.value
          | _ => builder

/-- The flags of a translation: what its registers hold. -/
def natFlags (nat : NatExpr) : Nat :=
  (if nat.addr.regInUse then NF_NAT_RANGE_MAP_IPS else 0) |||
    (if nat.port.isSome then NF_NAT_RANGE_PROTO_SPECIFIED else 0)

def writeNat (builder : MessageBuilder) (nat : NatExpr) : MessageBuilder :=
  let builder := builder.appendAttrU32Be order NFTA_NAT_TYPE nat.natType.toU32
  let builder := builder.appendAttrU32Be order NFTA_NAT_FAMILY nat.family.toU8
  let builder :=
    if nat.addr.regInUse then
      (builder.appendAttrU32Be order NFTA_NAT_REG_ADDR_MIN
        Register.r0.toU32).appendAttrU32Be order NFTA_NAT_REG_ADDR_MAX
        Register.r0.toU32
    else
      builder
  let builder :=
    if nat.port.isSome then
      (builder.appendAttrU32Be order NFTA_NAT_REG_PROTO_MIN
        Register.r1.toU32).appendAttrU32Be order NFTA_NAT_REG_PROTO_MAX
        Register.r1.toU32
    else
      builder
  if natFlags nat ≠ 0 then builder.appendAttrU32Be order NFTA_NAT_FLAGS (natFlags nat) else builder

/-- The name and the data of an expression. -/
def writeExprBody (builder : MessageBuilder) : Expr → MessageBuilder
  | .metaLoad dreg key =>
      writeNamed order builder "meta" fun builder =>
        (builder.appendAttrU32Be order NFTA_META_DREG
          dreg.toU32).appendAttrU32Be order NFTA_META_KEY key.toU32
  | .cmp sreg op data =>
      writeNamed order builder "cmp" fun builder =>
        writeDataValue order
          ((builder.appendAttrU32Be order NFTA_CMP_SREG
            sreg.toU32).appendAttrU32Be order NFTA_CMP_OP op.toU32)
          NFTA_CMP_DATA data
  | .payload dreg base offset len =>
      writeNamed order builder "payload" fun builder =>
        (((builder.appendAttrU32Be order NFTA_PAYLOAD_DREG
          dreg.toU32).appendAttrU32Be order NFTA_PAYLOAD_BASE
          base.toU32).appendAttrU32Be order NFTA_PAYLOAD_OFFSET
          offset).appendAttrU32Be order NFTA_PAYLOAD_LEN len
  | .immediate dreg data =>
      writeNamed order builder "immediate" fun builder =>
        writeDataValue order (builder.appendAttrU32Be order NFTA_IMMEDIATE_DREG dreg.toU32)
          NFTA_IMMEDIATE_DATA data
  | .verdict verdict => writeVerdictExpr order builder verdict
  | .counter =>
      writeNamed order builder "counter" fun builder =>
        (builder.appendAttrU64Be order NFTA_COUNTER_BYTES 0).appendAttrU64Be
          order NFTA_COUNTER_PACKETS 0
  | .limit rate unit burst =>
      writeNamed order builder "limit" fun builder =>
        (((builder.appendAttrU64Be order NFTA_LIMIT_RATE rate).appendAttrU64Be
          order NFTA_LIMIT_UNIT unit.toU64).appendAttrU32Be
          order NFTA_LIMIT_BURST burst).appendAttrU32Be
          order NFTA_LIMIT_TYPE 0
  | .masquerade => builder.appendAttrStr order NFTA_EXPR_NAME "masq"
  | .nat nat => writeNamed order builder "nat" fun builder => writeNat order builder nat
  | .redirect port =>
      if port.isSome then
        writeNamed order builder "redir" fun builder =>
          ((builder.appendAttrU32Be order NFTA_REDIR_REG_PROTO_MIN
            Register.r0.toU32).appendAttrU32Be order NFTA_REDIR_REG_PROTO_MAX
            Register.r0.toU32).appendAttrU32Be order NFTA_REDIR_FLAGS
            NF_NAT_RANGE_PROTO_SPECIFIED
      else
        builder.appendAttrStr order NFTA_EXPR_NAME "redir"
  | .reject rejectType icmpCode =>
      writeNamed order builder "reject" fun builder =>
        (builder.appendAttrU32Be order NFTA_REJECT_TYPE rejectType).appendAttr
          order NFTA_REJECT_ICMP_CODE [UInt8.ofNat icmpCode]
  | .log logPrefix group =>
      writeNamed order builder "log" fun builder =>
        let builder :=
          match logPrefix with
          | some text => builder.appendAttrStr order NFTA_LOG_PREFIX text
          | none => builder
        match group with
        | some group => builder.appendAttrU16Be order NFTA_LOG_GROUP group
        | none => builder
  | .ct dreg key =>
      writeNamed order builder "ct" fun builder =>
        (builder.appendAttrU32Be order NFTA_CT_DREG
          dreg.toU32).appendAttrU32Be order NFTA_CT_KEY key.toU32
  | .lookup set sreg =>
      writeNamed order builder "lookup" fun builder =>
        (builder.appendAttrStr order NFTA_LOOKUP_SET set).appendAttrU32Be
          order NFTA_LOOKUP_SREG sreg.toU32
  | .bitwise sreg dreg len mask xor =>
      writeNamed order builder "bitwise" fun builder =>
        writeDataValue order
          (writeDataValue order ((((builder.appendAttrU32Be order NFTA_BITWISE_SREG
              sreg.toU32).appendAttrU32Be order NFTA_BITWISE_DREG
              dreg.toU32).appendAttrU32Be order NFTA_BITWISE_LEN
              len).appendAttrU32Be order NFTA_BITWISE_OP NFT_BITWISE_BOOL)
            NFTA_BITWISE_MASK mask)
          NFTA_BITWISE_XOR xor
  | .flowOffload table =>
      writeNamed order builder "flow_offload" fun builder =>
        builder.appendAttrStr order NFTA_FLOWTABLE_NAME table

/-- Write one expression as an element of the list. -/
def writeExpr (builder : MessageBuilder) (expr : Expr) : MessageBuilder :=
  builder.nest order (NFTA_LIST_ELEM ||| NLA_F_NESTED) fun builder =>
    writeExprBody order builder expr

/-- Write a rule's expressions as one attribute. -/
def writeExpressions (builder : MessageBuilder) (exprs : List Expr) :
    MessageBuilder :=
  builder.nest order (NFTA_RULE_EXPRESSIONS ||| NLA_F_NESTED) fun builder =>
    exprs.foldl (writeExpr order) builder

/-- The payload of a rule's expressions, read out of a scratch message. -/
def lowerToExpressionBytes (rule : Rule) : List UInt8 :=
  if rule.exprs.isEmpty then
    []
  else
    let raw := (writeExpressions order (.new order 0 0) rule.exprs).finish order
    if raw.length ≤ 20 then [] else raw.drop 20

end Writing

/-- A step appends the same bytes to every buffer. -/
def Steady (step : MessageBuilder → MessageBuilder) : Prop :=
  ∃ bytes, Appends step bytes

namespace Steady

theorem id : Steady fun builder => builder :=
  ⟨[], Appends.id⟩

variable (order : ByteOrder)
variable {step other : MessageBuilder → MessageBuilder}

section

variable (steady : Steady step)

include steady

theorem appendAttr (attrType : Nat) (data : List UInt8) :
    Steady fun builder => (step builder).appendAttr order attrType data := by
  obtain ⟨bytes, appends⟩ := steady
  exact ⟨_, appends.comp (Appends.appendAttr order attrType data)⟩

theorem appendAttrStr (attrType : Nat) (value : String) :
    Steady fun builder => (step builder).appendAttrStr order attrType value :=
  steady.appendAttr order attrType _

theorem appendAttrU16Be (attrType value : Nat) :
    Steady fun builder => (step builder).appendAttrU16Be order attrType value :=
  steady.appendAttr order attrType _

theorem appendAttrU32Be (attrType value : Nat) :
    Steady fun builder => (step builder).appendAttrU32Be order attrType value :=
  steady.appendAttr order attrType _

theorem appendAttrU64Be (attrType value : Nat) :
    Steady fun builder => (step builder).appendAttrU64Be order attrType value :=
  steady.appendAttr order attrType _

theorem nest (attrType : Nat) {body : MessageBuilder → MessageBuilder}
    (bodySteady : Steady body) : Steady fun builder => (step builder).nest order attrType body := by
  obtain ⟨bytes, appends⟩ := steady
  obtain ⟨bodyBytes, bodyAppends⟩ := bodySteady
  exact ⟨_, appends.comp (bodyAppends.nest order attrType)⟩

theorem writeNamed (name : String) {data : MessageBuilder → MessageBuilder}
    (dataSteady : Steady data) : Steady fun builder => writeNamed order (step builder) name data :=
  (steady.appendAttrStr order NFTA_EXPR_NAME name).nest order _ dataSteady

theorem writeDataValue (attrType : Nat) (data : List UInt8) :
    Steady fun builder => writeDataValue order (step builder) attrType data :=
  steady.nest order _ (id.appendAttr order NFTA_DATA_VALUE data)

end

theorem ite (condition : Prop) [Decidable condition] (steady : Steady step)
    (otherSteady : Steady other) :
    Steady fun builder =>
      if condition then step builder else other builder := by
  by_cases taken : condition
  · simpa only [if_pos taken] using steady
  · simpa only [if_neg taken] using otherSteady

theorem appends (steady : Steady step) : Appends step (step ⟨[]⟩).buf := by
  obtain ⟨bytes, appends⟩ := steady
  have alone := appends.appended ⟨[]⟩ (Nat.dvd_zero 4)
  rw [List.nil_append] at alone
  rw [alone]
  exact appends

end Steady

section Steadiness

variable (order : ByteOrder)

theorem writeVerdictExpr_steady (verdict : Verdict) :
    Steady fun builder => writeVerdictExpr order builder verdict := by
  have code := Steady.id.appendAttrU32Be order NFTA_VERDICT_CODE (verdict.code % 2 ^ 32).toNat
  refine Steady.id.writeNamed order _
    ((Steady.id.appendAttrU32Be order _ _).nest order _ (Steady.id.nest order _ ?_))
  cases verdict with
  | jumpTo chain => exact code.appendAttrStr order _ _
  | gotoTo chain => exact code.appendAttrStr order _ _
  | _ => exact code

theorem writeNat_steady (nat : NatExpr) : Steady fun builder => writeNat order builder nat := by
  have kind := (Steady.id.appendAttrU32Be order NFTA_NAT_TYPE
    nat.natType.toU32).appendAttrU32Be order NFTA_NAT_FAMILY nat.family.toU8
  have addr := Steady.ite (nat.addr.regInUse = true)
    ((kind.appendAttrU32Be order NFTA_NAT_REG_ADDR_MIN
      Register.r0.toU32).appendAttrU32Be order NFTA_NAT_REG_ADDR_MAX
      Register.r0.toU32) kind
  have port := Steady.ite (nat.port.isSome = true)
    ((addr.appendAttrU32Be order NFTA_NAT_REG_PROTO_MIN
      Register.r1.toU32).appendAttrU32Be order NFTA_NAT_REG_PROTO_MAX
      Register.r1.toU32) addr
  exact Steady.ite (natFlags nat ≠ 0) (port.appendAttrU32Be order _ _) port

variable (expr : Expr)

theorem writeExprBody_steady : Steady fun builder => writeExprBody order builder expr := by
  have start : Steady fun builder => builder := Steady.id
  cases expr with
  | metaLoad dreg key | ct dreg key =>
      exact start.writeNamed order _ ((start.appendAttrU32Be order _ _).appendAttrU32Be order _ _)
  | cmp sreg op data =>
      exact start.writeNamed order _
        (((start.appendAttrU32Be order _ _).appendAttrU32Be order _ _).writeDataValue order _ _)
  | payload dreg base offset len =>
      exact start.writeNamed order _ ((((start.appendAttrU32Be order _ _).appendAttrU32Be
          order _ _).appendAttrU32Be order _ _).appendAttrU32Be order _ _)
  | immediate dreg data =>
      exact start.writeNamed order _ ((start.appendAttrU32Be order _ _).writeDataValue order _ _)
  | verdict verdict => exact writeVerdictExpr_steady order verdict
  | counter =>
      exact start.writeNamed order _ ((start.appendAttrU64Be order _ _).appendAttrU64Be order _ _)
  | limit rate unit burst =>
      exact start.writeNamed order _ ((((start.appendAttrU64Be order _ _).appendAttrU64Be
          order _ _).appendAttrU32Be order _ _).appendAttrU32Be order _ _)
  | masquerade => exact start.appendAttrStr order _ _
  | nat nat => exact start.writeNamed order _ (writeNat_steady order nat)
  | redirect port =>
      exact Steady.ite (port.isSome = true) (start.writeNamed order _
          (((start.appendAttrU32Be order _ _).appendAttrU32Be order _ _).appendAttrU32Be order _ _))
        (start.appendAttrStr order _ _)
  | reject rejectType icmpCode =>
      exact start.writeNamed order _ ((start.appendAttrU32Be order _ _).appendAttr order _ _)
  | log logPrefix group =>
      refine start.writeNamed order _ ?_
      cases logPrefix with
      | none =>
          cases group with
          | none => exact start
          | some group => exact start.appendAttrU16Be order _ _
      | some text =>
          cases group with
          | none => exact start.appendAttrStr order _ _
          | some group => exact (start.appendAttrStr order _ _).appendAttrU16Be order _ _
  | lookup set sreg =>
      exact start.writeNamed order _ ((start.appendAttrStr order _ _).appendAttrU32Be order _ _)
  | bitwise sreg dreg len mask xor =>
      exact start.writeNamed order _ ((((((start.appendAttrU32Be order _ _).appendAttrU32Be
          order _ _).appendAttrU32Be order _ _).appendAttrU32Be
          order _ _).writeDataValue order _ _).writeDataValue order _ _)
  | flowOffload table => exact start.writeNamed order _ (start.appendAttrStr order _ _)

theorem writeExpr_steady : Steady fun builder => writeExpr order builder expr :=
  Steady.id.nest order _ (writeExprBody_steady order expr)

/-- The payload that a rule's expressions add to any message. -/
def expressionBytes (exprs : List Expr) : List UInt8 :=
  exprs.flatMap fun expr => (writeExpr order ⟨[]⟩ expr).buf

theorem writeExpressions_appends (exprs : List Expr) :
    let payload := expressionBytes order exprs
    Appends (fun builder => writeExpressions order builder exprs)
      (order.toBytes 2 (min (4 + payload.length) 65535) ++
        order.toBytes 2 (NFTA_RULE_EXPRESSIONS ||| NLA_F_NESTED ||| NLA_F_NESTED) ++ payload) :=
  (Appends.foldl (fun expr => (writeExpr_steady order expr).appends) exprs).nest order _

theorem writeExpressions_payload (builder : MessageBuilder) (aligned : 4 ∣ builder.buf.length)
    (exprs : List Expr) :
    (writeExpressions order builder exprs).buf.drop (builder.buf.length + NLA_HDRLEN) =
      expressionBytes order exprs := by
  have shape := (writeExpressions_appends order exprs).appended builder aligned
  rw [shape, ← drop_drop, drop_left, drop_left' (by simp [NLA_HDRLEN])]

theorem writeExpr_length : 0 < (writeExpr order ⟨[]⟩ expr).buf.length := by
  have shape := ((writeExprBody_steady order expr).appends.nest order
    (NFTA_LIST_ELEM ||| NLA_F_NESTED)).appended ⟨[]⟩ (Nat.dvd_zero 4)
  change (writeExpr order ⟨[]⟩ expr).buf = _ at shape
  rw [shape]
  simp only [length_append, ByteOrder.toBytes_length]
  omega

theorem lowerToExpressionBytes_eq (rule : Rule) :
    lowerToExpressionBytes order rule = expressionBytes order rule.exprs := by
  have headerLength : (MessageBuilder.new order 0 0).buf.length = 16 := by
    simp [MessageBuilder.new, NlMsgHdr.asBytes]
  have aligned : 4 ∣ (MessageBuilder.new order 0 0).buf.length := by
    rw [headerLength]
    decide
  rw [lowerToExpressionBytes]
  cases exprs : rule.exprs with
  | nil => rfl
  | cons expr rest =>
      have payload := writeExpressions_payload order _ aligned (expr :: rest)
      have shape := (writeExpressions_appends order (expr :: rest)).appended _ aligned
      have nonempty : 0 < (expressionBytes order (expr :: rest)).length := by
        have first := writeExpr_length order expr
        rw [expressionBytes, flatMap_cons, length_append]
        omega
      have length :
          ((writeExpressions order (.new order 0 0) (expr :: rest)).finish order).length =
              20 + (expressionBytes order (expr :: rest)).length := by
        rw [MessageBuilder.finish, shape]
        simp only [length_append, length_drop, ByteOrder.toBytes_length, headerLength]
        omega
      rw [if_neg (by simp)]
      simp only [length]
      rw [if_neg (by omega), MessageBuilder.finish, show (20 : Nat) = 4 + 16 from rfl, ←
        drop_drop, drop_left' (by simp), drop_drop]
      rw [headerLength] at payload
      exact payload

end Steadiness

/-!
## An expression as attributes

An expression is its name and, for most, a nest with the data of its kind.
-/

def Writes (order : ByteOrder) (step : MessageBuilder → MessageBuilder) (attrs : Attrs) : Prop :=
  Appends step (attrs.encode order)

namespace Writes

variable {order : ByteOrder}
variable {step : MessageBuilder → MessageBuilder}
variable {attrs : Attrs}

theorem id : Writes order (fun builder => builder) .nil :=
  Appends.id

section

variable (writes : Writes order step attrs)

include writes

theorem appendAttr (attrType : Nat) (data : List UInt8) :
    Writes order (fun builder => (step builder).appendAttr order attrType data)
      (attrs ++ .leaf attrType data .nil) := by
  have attr := Appends.appendAttr order attrType data
  have length : ((NlAttr.new attrType data.length).asBytes order ++ data).length =
        4 + data.length := by
    simp only [NlAttr.asBytes, length_append, ByteOrder.toBytes_length]
  have bytes : (NlAttr.new attrType data.length).asBytes order ++ data ++
          padding (4 + data.length) =
        (Attrs.leaf attrType data .nil).encode order := by
    simp only [Attrs.encode, attrBytes, NlAttr.new, NlAttr.asBytes,
      NLA_HDRLEN, List.append_assoc, List.append_nil]
  rw [Writes, encode_append, ← bytes, ← length]
  exact writes.comp attr

theorem nest (attrType : Nat) {body : MessageBuilder → MessageBuilder} {inner : Attrs}
    (bodyWrites : Writes order body inner) :
    Writes order
      (fun builder => (step builder).nest order (attrType ||| NLA_F_NESTED) body)
      (attrs ++ .nest attrType inner .nil) := by
  have attr := Appends.nest order (attrType ||| NLA_F_NESTED) bodyWrites
  have aligned : 4 ∣ 4 + (inner.encode order).length :=
    Nat.dvd_add (Nat.dvd_refl 4) (dvd_length_encode order inner)
  have bytes : order.toBytes 2 (min (4 + (inner.encode order).length) 65535) ++
          order.toBytes 2 (attrType ||| NLA_F_NESTED ||| NLA_F_NESTED) ++
          inner.encode order =
        (Attrs.nest attrType inner .nil).encode order := by
    simp only [Attrs.encode, attrBytes, padding_of_dvd aligned,
      Nat.or_assoc, Nat.or_self, List.append_assoc, List.append_nil]
  rw [Writes, encode_append, ← bytes]
  exact writes.comp attr

theorem appendAttrStr (attrType : Nat) (value : String) :
    Writes order (fun builder => (step builder).appendAttrStr order attrType value)
      (attrs ++ .str attrType value) :=
  writes.appendAttr attrType _

theorem appendAttrBe (width attrType value : Nat) : Writes order
      (fun builder => (step builder).appendAttrBe order width attrType value)
      (attrs ++ .be width attrType value) :=
  writes.appendAttr attrType _

theorem appendTwice (minType maxType value : Nat) : Writes order
      (fun builder =>
        ((step builder).appendAttrU32Be order minType value).appendAttrU32Be order maxType value)
      (attrs ++ (.be 4 minType value ++ .be 4 maxType value)) := by
  rw [← Attrs.append_assoc]
  exact (writes.appendAttrBe 4 minType value).appendAttrBe 4 maxType value

theorem writeDataValue (attrType : Nat) (data : List UInt8) :
    Writes order (fun builder => writeDataValue order (step builder) attrType data)
      (attrs ++ .nest attrType (.leaf NFTA_DATA_VALUE data .nil) .nil) :=
  writes.nest attrType (id.appendAttr NFTA_DATA_VALUE data)

end

theorem writeNamed (name : String) {data : MessageBuilder → MessageBuilder} {inner : Attrs}
    (dataWrites : Writes order data inner) :
    Writes order (fun builder => writeNamed order builder name data)
      (.str NFTA_EXPR_NAME name ++ .nest NFTA_EXPR_DATA inner .nil) :=
  (id.appendAttrStr NFTA_EXPR_NAME name).nest NFTA_EXPR_DATA dataWrites

theorem ite (condition : Prop) [Decidable condition] {other : MessageBuilder → MessageBuilder}
    {more : Attrs} (writes : Writes order step attrs)
    (otherWrites : Writes order other (attrs ++ more)) :
    Writes order (fun builder => if condition then other builder else step builder)
      (attrs ++ if condition then more else .nil) := by
  by_cases taken : condition
  · simpa only [if_pos taken] using otherWrites
  · simpa only [if_neg taken, Attrs.append_nil] using writes

end Writes

/-- The code of a verdict, and the chain of a jump. -/
def Verdict.attrs (verdict : Verdict) : Attrs :=
  .be 4 NFTA_VERDICT_CODE (verdict.code % 2 ^ 32).toNat ++
    match verdict with
    | .jumpTo chain | .gotoTo chain => .str NFTA_VERDICT_CHAIN chain.value
    | _ => .nil

def NatExpr.attrs (nat : NatExpr) : Attrs :=
  .be 4 NFTA_NAT_TYPE nat.natType.toU32 ++ .be 4 NFTA_NAT_FAMILY nat.family.toU8 ++
    (if nat.addr.regInUse then
      .be 4 NFTA_NAT_REG_ADDR_MIN Register.r0.toU32 ++ .be 4 NFTA_NAT_REG_ADDR_MAX Register.r0.toU32
    else
      .nil) ++
    (if nat.port.isSome then
      .be 4 NFTA_NAT_REG_PROTO_MIN Register.r1.toU32 ++
        .be 4 NFTA_NAT_REG_PROTO_MAX Register.r1.toU32
    else
      .nil) ++
    if natFlags nat ≠ 0 then .be 4 NFTA_NAT_FLAGS (natFlags nat) else .nil

namespace Expr

def name : Expr → String
  | .metaLoad _ _ => "meta"
  | .cmp _ _ _ => "cmp"
  | .payload _ _ _ _ => "payload"
  | .immediate _ _ => "immediate"
  | .verdict _ => "immediate"
  | .counter => "counter"
  | .limit _ _ _ => "limit"
  | .masquerade => "masq"
  | .nat _ => "nat"
  | .redirect _ => "redir"
  | .reject _ _ => "reject"
  | .log _ _ => "log"
  | .ct _ _ => "ct"
  | .lookup _ _ => "lookup"
  | .bitwise _ _ _ _ _ => "bitwise"
  | .flowOffload _ => "flow_offload"

/-- The data under the name, if there is any. -/
def data : Expr → Option Attrs
  | .metaLoad dreg key => some (.be 4 NFTA_META_DREG dreg.toU32 ++ .be 4 NFTA_META_KEY key.toU32)
  | .cmp sreg op data =>
      some
        (.be 4 NFTA_CMP_SREG sreg.toU32 ++ .be 4 NFTA_CMP_OP op.toU32 ++
          .nest NFTA_CMP_DATA (.leaf NFTA_DATA_VALUE data .nil) .nil)
  | .payload dreg base offset len =>
      some
        (.be 4 NFTA_PAYLOAD_DREG dreg.toU32 ++ .be 4 NFTA_PAYLOAD_BASE base.toU32 ++
          .be 4 NFTA_PAYLOAD_OFFSET offset ++ .be 4 NFTA_PAYLOAD_LEN len)
  | .immediate dreg data =>
      some
        (.be 4 NFTA_IMMEDIATE_DREG dreg.toU32 ++
          .nest NFTA_IMMEDIATE_DATA (.leaf NFTA_DATA_VALUE data .nil) .nil)
  | .verdict target =>
      some
        (.be 4 NFTA_IMMEDIATE_DREG Register.verdict.toU32 ++ .nest NFTA_IMMEDIATE_DATA
            (.nest NFTA_DATA_VERDICT target.attrs .nil) .nil)
  | .counter => some (.be 8 NFTA_COUNTER_BYTES 0 ++ .be 8 NFTA_COUNTER_PACKETS 0)
  | .limit rate unit burst =>
      some
        (.be 8 NFTA_LIMIT_RATE rate ++ .be 8 NFTA_LIMIT_UNIT unit.toU64 ++
          .be 4 NFTA_LIMIT_BURST burst ++ .be 4 NFTA_LIMIT_TYPE 0)
  | .masquerade => none
  | .nat translation => some translation.attrs
  | .redirect port =>
      if port.isSome then
        some
          (.be 4 NFTA_REDIR_REG_PROTO_MIN Register.r0.toU32 ++
            .be 4 NFTA_REDIR_REG_PROTO_MAX Register.r0.toU32 ++
            .be 4 NFTA_REDIR_FLAGS NF_NAT_RANGE_PROTO_SPECIFIED)
      else
        none
  | .reject rejectType icmpCode =>
      some
        (.be 4 NFTA_REJECT_TYPE rejectType ++
          .leaf NFTA_REJECT_ICMP_CODE [UInt8.ofNat icmpCode] .nil)
  | .log logPrefix group =>
      some
        ((match logPrefix with
          | some text => .str NFTA_LOG_PREFIX text
          | none => .nil) ++
          match group with
          | some group => .be 2 NFTA_LOG_GROUP group
          | none => .nil)
  | .ct dreg key => some (.be 4 NFTA_CT_DREG dreg.toU32 ++ .be 4 NFTA_CT_KEY key.toU32)
  | .lookup set sreg => some (.str NFTA_LOOKUP_SET set ++ .be 4 NFTA_LOOKUP_SREG sreg.toU32)
  | .bitwise sreg dreg len mask xor =>
      some
        (.be 4 NFTA_BITWISE_SREG sreg.toU32 ++
          .be 4 NFTA_BITWISE_DREG dreg.toU32 ++ .be 4 NFTA_BITWISE_LEN len ++
          .be 4 NFTA_BITWISE_OP NFT_BITWISE_BOOL ++
          .nest NFTA_BITWISE_MASK (.leaf NFTA_DATA_VALUE mask .nil) .nil ++
          .nest NFTA_BITWISE_XOR (.leaf NFTA_DATA_VALUE xor .nil) .nil)
  | .flowOffload table => some (.str NFTA_FLOWTABLE_NAME table)

def attrs (expr : Expr) : Attrs :=
  .str NFTA_EXPR_NAME expr.name ++
    match expr.data with
    | some data => .nest NFTA_EXPR_DATA data .nil
    | none => .nil

end Expr

section Writers

variable (order : ByteOrder)

theorem writeVerdictExpr_writes (verdict : Verdict) :
    Writes order (fun builder => writeVerdictExpr order builder verdict)
      (Expr.verdict verdict).attrs := by
  have whole : Writes order (fun builder =>
          let builder := builder.appendAttrU32Be order NFTA_VERDICT_CODE
            (verdict.code % 2 ^ 32).toNat
          match verdict with
          | .jumpTo chain | .gotoTo chain =>
              builder.appendAttrStr order NFTA_VERDICT_CHAIN chain.value
          | _ => builder)
        verdict.attrs := by
    have start : Writes order (fun builder => builder) .nil := Writes.id
    have code := start.appendAttrBe 4 NFTA_VERDICT_CODE (verdict.code % 2 ^ 32).toNat
    cases verdict with
    | jumpTo chain => exact code.appendAttrStr _ _
    | gotoTo chain => exact code.appendAttrStr _ _
    | _ => exact code
  exact Writes.writeNamed _ ((Writes.id.appendAttrBe 4 _ _).nest _ (Writes.id.nest _ whole))

theorem writeNat_writes (nat : NatExpr) :
    Writes order (fun builder => writeNat order builder nat) nat.attrs := by
  have start : Writes order (fun builder => builder) .nil := Writes.id
  have kind := (start.appendAttrBe 4 NFTA_NAT_TYPE
    nat.natType.toU32).appendAttrBe 4 NFTA_NAT_FAMILY nat.family.toU8
  have addr := Writes.ite (nat.addr.regInUse = true) kind
    (kind.appendTwice NFTA_NAT_REG_ADDR_MIN NFTA_NAT_REG_ADDR_MAX Register.r0.toU32)
  have port := Writes.ite (nat.port.isSome = true) addr
    (addr.appendTwice NFTA_NAT_REG_PROTO_MIN NFTA_NAT_REG_PROTO_MAX Register.r1.toU32)
  exact Writes.ite (natFlags nat ≠ 0) port (port.appendAttrBe 4 NFTA_NAT_FLAGS (natFlags nat))

theorem writeExprBody_writes (expr : Expr) :
    Writes order (fun builder => writeExprBody order builder expr)
      expr.attrs := by
  have start : Writes order (fun builder => builder) .nil := Writes.id
  cases expr with
  | metaLoad dreg key | ct dreg key =>
      exact Writes.writeNamed _ ((start.appendAttrBe 4 _ _).appendAttrBe 4 _ _)
  | cmp sreg op data =>
      exact Writes.writeNamed _ (((start.appendAttrBe 4 _ _).appendAttrBe 4 _ _).writeDataValue _ _)
  | payload dreg base offset len =>
      exact Writes.writeNamed _
        ((((start.appendAttrBe 4 _ _).appendAttrBe 4 _ _).appendAttrBe 4 _ _).appendAttrBe 4 _ _)
  | immediate dreg data => exact Writes.writeNamed _ ((start.appendAttrBe 4 _ _).writeDataValue _ _)
  | verdict verdict => exact writeVerdictExpr_writes order verdict
  | counter => exact Writes.writeNamed _ ((start.appendAttrBe 8 _ _).appendAttrBe 8 _ _)
  | limit rate unit burst =>
      exact Writes.writeNamed _
        ((((start.appendAttrBe 8 _ _).appendAttrBe 8 _ _).appendAttrBe 4 _ _).appendAttrBe 4 _ _)
  | masquerade => exact start.appendAttrStr NFTA_EXPR_NAME "masq"
  | nat nat => exact Writes.writeNamed _ (writeNat_writes order nat)
  | redirect port =>
      simp only [writeExprBody, Expr.attrs, Expr.data, Expr.name]
      cases port with
      | none =>
          simp only [Option.isSome_none, Bool.false_eq_true, if_false, Attrs.append_nil]
          exact start.appendAttrStr NFTA_EXPR_NAME "redir"
      | some _ =>
          simp only [Option.isSome_some, if_true]
          exact Writes.writeNamed "redir"
            (((start.appendAttrBe 4 NFTA_REDIR_REG_PROTO_MIN
              Register.r0.toU32).appendAttrBe 4 NFTA_REDIR_REG_PROTO_MAX
              Register.r0.toU32).appendAttrBe 4 NFTA_REDIR_FLAGS
              NF_NAT_RANGE_PROTO_SPECIFIED)
  | reject rejectType icmpCode =>
      exact Writes.writeNamed _ ((start.appendAttrBe 4 _ _).appendAttr _ _)
  | log logPrefix group =>
      refine Writes.writeNamed _ ?_
      cases logPrefix with
      | none =>
          cases group with
          | none => exact start
          | some group => exact start.appendAttrBe 2 NFTA_LOG_GROUP group
      | some text =>
          cases group with
          | none => exact start.appendAttrStr NFTA_LOG_PREFIX text
          | some group =>
              exact (start.appendAttrStr NFTA_LOG_PREFIX text).appendAttrBe 2 NFTA_LOG_GROUP group
  | lookup set sreg => exact Writes.writeNamed _ ((start.appendAttrStr _ _).appendAttrBe 4 _ _)
  | bitwise sreg dreg len mask xor =>
      exact Writes.writeNamed _ ((((((start.appendAttrBe 4 _ _).appendAttrBe 4 _ _).appendAttrBe
          4 _ _).appendAttrBe 4 _ _).writeDataValue _ _).writeDataValue _ _)
  | flowOffload table => exact Writes.writeNamed _ (start.appendAttrStr _ _)

/-- An expression is written as its tree. -/
theorem writeExpr_buf (expr : Expr) : (writeExpr order ⟨[]⟩ expr).buf =
      (Attrs.nest NFTA_LIST_ELEM expr.attrs .nil).encode order := by
  have start : Writes order (fun builder => builder) .nil := Writes.id
  have element := start.nest NFTA_LIST_ELEM (writeExprBody_writes order expr)
  have written := element.appended ⟨[]⟩ (Nat.dvd_zero 4)
  exact written

end Writers

end Nlink.Nftables
