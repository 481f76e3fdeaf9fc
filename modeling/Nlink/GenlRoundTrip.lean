import Nlink.GenlMessage
import Nlink.NetlinkRoute

namespace Nlink.Genl

open Foundation Netlink Nftables List

/-!
# The attributes of a derived message

What `to_bytes` appends is one attribute for each field, none for a field that
is absent, and one for each element of a list.
-/

variable (order : ByteOrder)

def variantBytes (type : GenlEnum) (variant : type.Variant) : List UInt8 :=
  order.toBytes type.repr.bytes (type.toRepr variant).toNat

/-- The attributes of a field marked `sint`. -/
def WireKind.sintWritten : (kind : WireKind) → Nat → kind.Value → List Attribute
  | .i32, attr, value => [(attr, sintBytes order (BitVec.signExtend 64 value))]
  | .i64, attr, value => [(attr, sintBytes order value)]
  | .optional .i32, attr, some value => [(attr, sintBytes order (BitVec.signExtend 64 value))]
  | .optional .i64, attr, some value => [(attr, sintBytes order value)]
  | _, _, _ => []

mutual

def WireKind.written : (kind : WireKind) → Nat → kind.Value → List Attribute
  | .u8, attr, value => [(attr, order.toBytes 1 (BitVec.toNat value))]
  | .u16, attr, value => [(attr, order.toBytes 2 (BitVec.toNat value))]
  | .u32, attr, value => [(attr, order.toBytes 4 (BitVec.toNat value))]
  | .u64, attr, value => [(attr, order.toBytes 8 (BitVec.toNat value))]
  | .i32, attr, value => [(attr, order.toBytes 4 (BitVec.toNat value))]
  | .i64, attr, value => [(attr, order.toBytes 8 (BitVec.toNat value))]
  | .str, attr, value => [(attr, asBytes value ++ [0])]
  | .bytes, attr, value => [(attr, value)]
  | .enum type, attr, value => [(attr, variantBytes order type value)]
  | .repeatedEnum type, attr, values =>
      List.map (fun value => (attr, variantBytes order type value)) values
  | .bitflags repr, attr, value => [(attr, order.toBytes repr.bytes (BitVec.toNat value))]
  | .nested group, attr, value => [(attr ||| NLA_F_NESTED, encodeAll order (group.written value))]
  | .optional inner, attr, value =>
      match value with
      | some value => inner.written attr value
      | none => []

def Schema.written : (schema : Schema) → schema.Value → List Attribute
  | .nil, _ => []
  | .field attr kind sint rest, (value, others) =>
      (if sint then
        kind.sintWritten order attr value
      else
        kind.written attr value) ++
        rest.written others

end

theorem appends_u8 (attr : Nat) (value : BitVec 8) :
    Appends (fun builder => emitU8Attr order builder attr value)
      (encodeAll order [(attr, order.toBytes 1 value.toNat)]) := by
  have oneByte : order.toBytes 1 value.toNat = [UInt8.ofNat value.toNat] := by cases order <;> rfl
  rw [oneByte]
  exact appends_one order attr _

theorem appends_repr (repr : ReprWidth) (attr : Nat) (value : Bits repr) :
    Appends (fun builder => emitReprAttr order repr builder attr value)
      (encodeAll order [(attr, order.toBytes repr.bytes value.toNat)]) := by
  cases repr with
  | u8 => exact appends_u8 order attr value
  | u16 => exact appends_one order attr _
  | u32 => exact appends_one order attr _

theorem appends_variants (type : GenlEnum) (attr : Nat) (values : List type.Variant) : Appends
      (fun builder =>
        values.foldl
          (fun builder value => emitReprAttr order type.repr builder attr (type.toRepr value))
          builder)
      (encodeAll order (values.map fun value => (attr, variantBytes order type value))) := by
  have each := Appends.foldl (fun value => appends_repr order type.repr attr (type.toRepr value))
    values
  have bytes : encodeAll order (values.map fun value => (attr, variantBytes order type value)) =
        values.flatMap fun value =>
          encodeAll order [(attr, variantBytes order type value)] := by
    rw [encodeAll, flatMap_map]
    exact flatMap_congr fun value _ => by rw [encodeAll, flatMap_singleton]
  rw [bytes]
  exact each

theorem appends_sint (attr : Nat) (value : BitVec 64) :
    Appends (fun builder => emitSintAttr order builder attr value)
      (encodeAll order [(attr, sintBytes order value)]) := by
  simp only [emitSintAttr_eq]
  exact appends_one order attr _

theorem WireKind.appends_sintWritten (kind : WireKind) (attr : Nat) (value : kind.Value) :
    Appends (fun builder => kind.sintEmitCall order builder attr value)
      (encodeAll order (kind.sintWritten order attr value)) := by
  cases kind with
  | i32 => exact appends_sint order attr _
  | i64 => exact appends_sint order attr _
  | optional inner =>
      cases inner <;>
        cases value <;>
        first
          | exact Appends.id
          | exact appends_sint order attr _
  | _ => exact Appends.id

mutual

theorem WireKind.appends_written : (kind : WireKind) → (attr : Nat) → (value : kind.Value) →
      Appends (fun builder => kind.emitCall order builder attr value)
        (encodeAll order (kind.written order attr value))
  | .u8, attr, value => appends_u8 order attr value
  | .u16, attr, _ => appends_one order attr _
  | .u32, attr, _ => appends_one order attr _
  | .u64, attr, _ => appends_one order attr _
  | .i32, attr, _ => appends_one order attr _
  | .i64, attr, _ => appends_one order attr _
  | .str, attr, _ => appends_one order attr _
  | .bytes, attr, _ => appends_one order attr _
  | .enum type, attr, value => appends_repr order type.repr attr _
  | .repeatedEnum type, attr, values => appends_variants order type attr values
  | .bitflags repr, attr, value => appends_repr order repr attr value
  | .nested group, attr, value => by
      have nested := appends_nestAll order (attr ||| NLA_F_NESTED) (group.appends_written value)
      rw [Nat.or_assoc, Nat.or_self] at nested
      exact nested
  | .optional inner, attr, value =>
      match value with
      | some value => inner.appends_written attr value
      | none => Appends.id

theorem Schema.appends_written : (schema : Schema) → (value : schema.Value) →
      Appends (fun builder => schema.toBytes order builder value)
        (encodeAll order (schema.written order value))
  | .nil, _ => Appends.id
  | .field attr kind sint rest, (value, others) => by
      have first : Appends (fun builder =>
              if sint then
                kind.sintEmitCall order builder attr value
              else
                kind.emitCall order builder attr value)
            (encodeAll order (if sint then
                kind.sintWritten order attr value
              else
                kind.written order attr value)) := by
        cases sint with
        | true => exact kind.appends_sintWritten order attr value
        | false => exact kind.appends_written attr value
      exact Appends.compAll order first (rest.appends_written others)

end

/-!
## A derived message is read back from its attributes

A struct is read back field by field: the attributes of one field pass by the
arms of the others, because the types of the fields are distinct.
-/

/-- Whether every value of the kind is written as exactly one attribute. -/
def WireKind.isSingle : WireKind → Bool
  | .optional _ | .repeatedEnum _ => false
  | _ => true

mutual

/-- Only kinds with one attribute are optional. -/
def WireKind.Accepted : WireKind → Prop
  | .optional inner => inner.isSingle = true ∧ inner.Accepted
  | .nested group => group.Accepted
  | _ => True

/-- The kinds of the fields are those that the derive gives, with `sint` on
signed integers only. -/
def Schema.Accepted : Schema → Prop
  | .nil => True
  | .field _ kind sint rest =>
      kind.Accepted ∧ (sint = true → kind.allowsSint = true) ∧ rest.Accepted

end

/-- The types of a struct's attributes. -/
def Schema.ids : Schema → List Nat
  | .nil => []
  | .field attr _ _ rest => attr :: rest.ids

mutual

/-- The types of a group's attributes are distinct. -/
def WireKind.IdsDistinct : WireKind → Prop
  | .optional inner => inner.IdsDistinct
  | .nested group => group.IdsDistinct
  | _ => True

/-- The types of the attributes are distinct and have no flag bits, in nested
groups too. -/
def Schema.IdsDistinct : Schema → Prop
  | .nil => True
  | .field attr kind _ rest =>
      attr < NLA_F_NET_BYTEORDER ∧ attr ∉ rest.ids ∧ kind.IdsDistinct ∧ rest.IdsDistinct

end

mutual

def WireKind.NoNuls : (kind : WireKind) → kind.Value → Prop
  | .str, value => NoNul value
  | .nested group, value => group.NoNuls value
  | .optional inner, value =>
      match value with
      | some value => inner.NoNuls value
      | none => True
  | _, _ => True

def Schema.NoNuls : (schema : Schema) → schema.Value → Prop
  | .nil, _ => True
  | .field _ kind _ rest, (value, others) => kind.NoNuls value ∧ rest.NoNuls others

end

mutual

theorem RustType.classify_accepted :
    (type : RustType) → (args : GenlAttrArgs) → (insideOption : Bool) →
      (kind : WireKind) → type.classify args insideOption = some kind → kind.Accepted
  | .u8, _, _, _, isKind => by cases isKind; trivial
  | .u16, _, _, _, isKind => by cases isKind; trivial
  | .u32, _, _, _, isKind => by cases isKind; trivial
  | .u64, _, _, _, isKind => by cases isKind; trivial
  | .i32, _, _, _, isKind => by cases isKind; trivial
  | .i64, _, _, _, isKind => by cases isKind; trivial
  | .string, _, _, _, isKind => by cases isKind; trivial
  | .vec item, args, insideOption, kind, isKind => by
      cases item with
      | u8 =>
          cases isKind
          trivial
      | genlEnum type =>
          rw [RustType.classify] at isKind
          split at isKind
          · cases isKind
            trivial
          · cases isKind
      | _ => cases isKind
  | .option inner, args, insideOption, kind, isKind => by
      have innerAccepted := inner.classify_accepted args true
      rw [RustType.classify] at isKind
      split at isKind
      · cases isKind
      · revert isKind innerAccepted
        cases inner.classify args true with
        | none =>
            intro _ isKind
            cases isKind
        | some innerKind =>
            intro innerAccepted isKind
            have accepted := innerAccepted innerKind rfl
            cases innerKind <;>
              first
                | cases isKind; done
                | cases isKind; exact ⟨rfl, accepted⟩
  | .genlEnum type, args, insideOption, kind, isKind => by
      rw [RustType.classify] at isKind
      split at isKind <;> cases isKind
      trivial
  | .bitflags repr, args, insideOption, kind, isKind => by
      rw [RustType.classify] at isKind
      split at isKind <;> cases isKind
      trivial
  | .netlinkAttrs .nil, args, insideOption, kind, isKind => by
      rw [RustType.classify] at isKind
      split at isKind <;> cases isKind
  | .netlinkAttrs (.field fieldArgs type rest), args, insideOption, kind, isKind => by
      have groupAccepted := Struct.specs_accepted (.field fieldArgs type rest)
      rw [RustType.classify] at isKind
      split at isKind
      · obtain ⟨group, isGroup, rfl⟩ := Option.map_eq_some_iff.mp isKind
        exact groupAccepted group isGroup
      · cases isKind

theorem Struct.specs_accepted : (struct : Struct) → (schema : Schema) → struct.specs = some schema →
      schema.Accepted
  | .nil, schema, isSchema => by
      cases isSchema
      trivial
  | .field args type rest, schema, isSchema => by
      have kindAccepted := type.classify_accepted args false
      have restAccepted := rest.specs_accepted
      rw [Struct.specs] at isSchema
      split at isSchema
      · obtain ⟨kind, isKind, isSchema⟩ := Option.bind_eq_some_iff.mp isSchema
        split at isSchema
        · cases isSchema
        · rename_i sintAllowed
          obtain ⟨others, isOthers, isSchema⟩ := Option.bind_eq_some_iff.mp isSchema
          cases isSchema
          refine ⟨kindAccepted kind isKind, fun sint => ?_, restAccepted others isOthers⟩
          cases allows : kind.allowsSint with
          | true => rfl
          | false =>
              rw [sint, allows] at sintAllowed
              exact absurd rfl sintAllowed
      · cases isSchema

end

variable (order : ByteOrder)

theorem GenlEnum.tryFrom_toRepr (type : GenlEnum) (variant : type.Variant) :
    type.tryFrom (type.toRepr variant) = .ok variant := by
  have fits := type.fits _ (get_mem type.discriminants variant)
  have raw : (type.toRepr variant).toNat = type.discriminants.get variant := by
    rw [GenlEnum.toRepr, BitVec.toNat_ofNat, Nat.pow_mul]
    exact Nat.mod_eq_of_lt fits
  have found : type.discriminants.finIdxOf? (type.discriminants.get variant) = some variant := by
    rw [finIdxOf?_eq_some_iff]
    refine ⟨rfl, fun earlier before same => ?_⟩
    have sameIndex : earlier = variant := nodup_iff_injective_get.mp type.distinct same
    rw [sameIndex] at before
    exact Nat.lt_irrefl _ before
  rw [GenlEnum.tryFrom, raw, found]

theorem parseReprAttr_toBytes (repr : ReprWidth) (value : Bits repr) :
    parseReprAttr order repr (order.toBytes repr.bytes value.toNat) = .ok value := by
  cases repr <;> exact parseFixed_toBytes order value

theorem parseVariant_variantBytes (type : GenlEnum) (variant : type.Variant) :
    parseVariant order type (variantBytes order type variant) = .ok variant := by
  rw [parseVariant, variantBytes, parseReprAttr_toBytes]
  exact type.tryFrom_toRepr variant

theorem foldlM_variants (type : GenlEnum) (attr : Nat) (pushed values : List type.Variant) :
    (values.map fun value => (attr, variantBytes order type value)).foldlM
        (fun (pushed : List type.Variant) attr =>
          (parseVariant order type attr.2).map fun value => List.append pushed [value])
        pushed =
      .ok (pushed ++ values) := by
  induction values generalizing pushed with
  | nil =>
      rw [List.append_nil]
      rfl
  | cons value rest ih =>
      have later := ih (pushed ++ [value])
      rw [List.append_assoc] at later
      rw [map_cons, foldlM_cons, parseVariant_variantBytes]
      exact later

variable {attr : Nat}

theorem nested_type (small : attr < NLA_F_NET_BYTEORDER) :
    (attr ||| NLA_F_NESTED) % NLA_F_NET_BYTEORDER = attr ∧ attr ||| NLA_F_NESTED < 256 ^ 2 :=
  ⟨Attrs.nested_kind small, Attrs.nested_lt small⟩

theorem WireKind.written_type (small : attr < NLA_F_NET_BYTEORDER) (kind : WireKind)
    (value : kind.Value) :
    ∀ written ∈ kind.written order attr value,
      written.1 % NLA_F_NET_BYTEORDER = attr ∧ written.1 < 256 ^ 2 := by
  have plain : attr % NLA_F_NET_BYTEORDER = attr ∧ attr < 256 ^ 2 :=
    ⟨Nat.mod_eq_of_lt small, Nat.lt_trans small (by decide)⟩
  cases kind with
  | nested group =>
      intro written member
      rw [mem_singleton.mp member]
      exact nested_type small
  | repeatedEnum type =>
      intro written member
      obtain ⟨variant, _, rfl⟩ := mem_map.mp member
      exact plain
  | optional inner =>
      cases value with
      | none =>
          intro written member
          cases member
      | some value => exact WireKind.written_type small inner value
  | _ =>
      intro written member
      rw [mem_singleton.mp member]
      exact plain

theorem WireKind.sintWritten_type (small : attr < NLA_F_NET_BYTEORDER) (kind : WireKind)
    (value : kind.Value) :
    ∀ written ∈ kind.sintWritten order attr value,
      written.1 % NLA_F_NET_BYTEORDER = attr ∧ written.1 < 256 ^ 2 := by
  have plain : attr % NLA_F_NET_BYTEORDER = attr ∧ attr < 256 ^ 2 :=
    ⟨Nat.mod_eq_of_lt small, Nat.lt_trans small (by decide)⟩
  have one : ∀ bytes : List UInt8, ∀ written ∈ [(attr, bytes)],
      written.1 % NLA_F_NET_BYTEORDER = attr ∧ written.1 < 256 ^ 2 := by
    intro bytes written member
    rw [mem_singleton.mp member]
    exact plain
  have empty : ∀ written ∈ ([] : List Attribute),
      written.1 % NLA_F_NET_BYTEORDER = attr ∧ written.1 < 256 ^ 2 :=
    forall_mem_nil _
  cases kind with
  | i32 => exact one _
  | i64 => exact one _
  | optional inner => cases inner <;> cases value <;> first | exact empty | exact one _
  | _ => exact empty

/-- The attributes of a field, marked `sint` or not. -/
def WireKind.fieldWritten (kind : WireKind) (sint : Bool) (attr : Nat) (value : kind.Value) :
    List Attribute :=
  if sint then kind.sintWritten order attr value else kind.written order attr value

theorem WireKind.fieldWritten_type (kind : WireKind) (sint : Bool)
    (small : attr < NLA_F_NET_BYTEORDER) (value : kind.Value) :
    ∀ written ∈ kind.fieldWritten order sint attr value,
      written.1 % NLA_F_NET_BYTEORDER = attr ∧ written.1 < 256 ^ 2 := by
  cases sint with
  | true => exact kind.sintWritten_type order small value
  | false => exact kind.written_type order small value

theorem Schema.written_type (schema : Schema) (distinct : schema.IdsDistinct)
    (value : schema.Value) :
    ∀ written ∈ schema.written order value, written.1 % NLA_F_NET_BYTEORDER ∈ schema.ids ∧
        written.1 < 256 ^ 2 := by
  cases schema with
  | nil =>
      intro written member
      cases member
  | field attr kind sint rest =>
      obtain ⟨small, _, _, restDistinct⟩ := distinct
      obtain ⟨value, others⟩ := value
      intro written member
      rcases mem_append.mp member with isField | isOther
      · have ofField := kind.fieldWritten_type order sint small value written isField
        exact ⟨ofField.1 ▸ mem_cons_self .., ofField.2⟩
      · obtain ⟨isKnown, fits⟩ := Schema.written_type rest restDistinct others written isOther
        exact ⟨mem_cons_of_mem _ isKnown, fits⟩

variable {kind : WireKind}

theorem WireKind.written_single (single : kind.isSingle = true) (attr : Nat) (value : kind.Value) :
    ∃ written, kind.written order attr value = [written] := by
  cases kind with
  | optional inner => cases single
  | repeatedEnum type => cases single
  | _ => exact ⟨_, rfl⟩

theorem parsed_one {parse : α → List UInt8 → Except Error α} {start value : α} {bytes : List UInt8}
    (parsed : parse start bytes = .ok value) :
    [(attr, bytes)].foldlM (fun value attr => parse value attr.2) start = .ok value := by
  rw [foldlM_cons, parsed]
  rfl

theorem parsed_of_one {parse : α → List UInt8 → Except Error α} {start value : α}
    {written : Attribute}
    (parsed : [written].foldlM (fun value attr => parse value attr.2) start = .ok value) :
    parse start written.2 = .ok value := by
  rw [foldlM_cons] at parsed
  cases result : parse start written.2 with
  | error error =>
      rw [result] at parsed
      cases parsed
  | ok read =>
      rw [result] at parsed
      exact parsed

theorem WireKind.sintParse_written (allowed : kind.allowsSint = true) (attr : Nat)
    (value : kind.Value) :
    (kind.sintWritten order attr value).foldlM
        (fun value attr => kind.sintParseArm order value attr.2)
        kind.default =
      .ok value := by
  cases kind with
  | i32 => exact parsed_one (parseSintAttrAsI32_sintBytes order value)
  | i64 => exact parsed_one (parseSintAttrAsI64_sintBytes order value)
  | optional inner =>
      cases inner with
      | i32 =>
          cases value with
          | none => rfl
          | some value =>
              exact parsed_one
                (congrArg (Except.map some) (parseSintAttrAsI32_sintBytes order value))
      | i64 =>
          cases value with
          | none => rfl
          | some value =>
              exact parsed_one
                (congrArg (Except.map some) (parseSintAttrAsI64_sintBytes order value))
      | _ => cases allowed
  | _ => cases allowed

theorem foldlM_first {step : α × β → Attribute → Except Error (α × β)}
    {stepFirst : α → Attribute → Except Error α} (attrs : List Attribute)
    (first : ∀ attr ∈ attrs, ∀ value others, step (value, others) attr =
        (stepFirst value attr).map fun value => (value, others))
    (value : α) (others : β) :
    attrs.foldlM step (value, others) =
      (attrs.foldlM stepFirst value).map fun value => (value, others) := by
  induction attrs generalizing value with
  | nil => rfl
  | cons attr attrs ih =>
      obtain ⟨here, later⟩ := forall_mem_cons.mp first
      rw [foldlM_cons, foldlM_cons, here]
      cases stepFirst value attr with
      | error error => rfl
      | ok value => exact ih later value

theorem foldlM_second {step : α × β → Attribute → Except Error (α × β)}
    {stepSecond : β → Attribute → Except Error β} (attrs : List Attribute)
    (second : ∀ attr ∈ attrs, ∀ value others, step (value, others) attr =
        (stepSecond others attr).map fun others => (value, others))
    (value : α) (others : β) :
    attrs.foldlM step (value, others) =
      (attrs.foldlM stepSecond others).map fun others => (value, others) := by
  induction attrs generalizing others with
  | nil => rfl
  | cons attr attrs ih =>
      obtain ⟨here, later⟩ := forall_mem_cons.mp second
      rw [foldlM_cons, foldlM_cons, here]
      cases stepSecond others attr with
      | error error => rfl
      | ok others => exact ih later others

/-- The match arm of a field, marked `sint` or not. -/
def WireKind.arm (kind : WireKind) (sint : Bool) (value : kind.Value)
    (payload : List UInt8) : Except Error kind.Value :=
  if sint then kind.sintParseArm order value payload else kind.parseArm order value payload

/-- What the fields hold behind attributes. -/
def Schema.parseAll (schema : Schema) (attrs : List Attribute) (value : schema.Value) :
    Except Error schema.Value :=
  attrs.foldlM (fun value attr => schema.parseAttr order value attr.masked) value

theorem Schema.fromBytes_encodeAll (schema : Schema) {attrs : List Attribute}
    (fit : ∀ attr ∈ attrs, attr.Fits) :
    schema.fromBytes order (encodeAll order attrs) =
      schema.parseAll order attrs schema.defaults := by
  rw [Schema.fromBytes, attrIter_encodeAll order fit, foldlM_map]
  rfl

theorem parseAll_taken {sint : Bool} {rest : Schema} (attrs : List Attribute)
    (taken : ∀ found ∈ attrs, kind.guard attr found.masked.1 = true) (value : kind.Value)
    (others : rest.Value) :
    (Schema.field attr kind sint rest).parseAll order attrs (value, others) =
      (attrs.foldlM (fun value found => kind.arm order sint value found.2)
        value).map fun value => (value, others) :=
  foldlM_first attrs (fun found member _ _ => if_pos (taken found member)) value others

theorem parseAll_left {sint : Bool} {rest : Schema} (attrs : List Attribute)
    (left : ∀ found ∈ attrs, kind.guard attr found.masked.1 = false) (value : kind.Value)
    (others : rest.Value) :
    (Schema.field attr kind sint rest).parseAll order attrs (value, others) =
      (rest.parseAll order attrs others).map fun others => (value, others) :=
  foldlM_second attrs
    (fun found member _ _ => if_neg (Bool.eq_false_iff.mp (left found member)))
    value others

theorem Schema.parseAll_append (schema : Schema) (first later : List Attribute)
    (value : schema.Value) :
    schema.parseAll order (first ++ later) value =
      (schema.parseAll order first value >>= schema.parseAll order later) :=
  foldlM_append ..

theorem WireKind.guard_iff (kind : WireKind) (attr : Nat) (found : Attribute) :
    kind.guard attr found.masked.1 = true ↔ found.1 % NLA_F_NET_BYTEORDER = attr := by
  have noNest : found.1 % NLA_F_NET_BYTEORDER % NLA_F_NESTED = found.1 % NLA_F_NET_BYTEORDER :=
    Nat.mod_eq_of_lt (Nat.lt_trans (Nat.mod_lt _ (by decide)) (by decide))
  cases kind with
  | optional inner =>
      cases inner with
      | nested group =>
          rw [← noNest]
          exact decide_eq_true_iff
      | _ => exact decide_eq_true_iff
  | _ => exact decide_eq_true_iff

theorem fits_inner {group : Schema} (distinct : group.IdsDistinct) {value : group.Value}
    (short : NLA_HDRLEN + (encodeAll order (group.written order value)).length ≤ 65535) :
    ∀ attr ∈ group.written order value, attr.Fits := by
  intro attr member
  have shorter := length_le_encodeAll order member
  exact ⟨(group.written_type order distinct value attr member).2, by omega⟩

mutual

theorem WireKind.parse_written :
    (kind : WireKind) → kind.Accepted → kind.IdsDistinct → (attr : Nat) →
      (value : kind.Value) → kind.NoNuls value →
        (∀ written ∈ kind.written order attr value, NLA_HDRLEN + written.2.length ≤ 65535) →
          (kind.written order attr value).foldlM
              (fun value attr => kind.parseArm order value attr.2)
              kind.default =
            .ok value
  | .u8, _, _, _, value, _, _ => parsed_one (@parseFixed_toBytes order 1 value)
  | .u16, _, _, _, value, _, _ => parsed_one (@parseFixed_toBytes order 2 value)
  | .u32, _, _, _, value, _, _ => parsed_one (@parseFixed_toBytes order 4 value)
  | .u64, _, _, _, value, _, _ => parsed_one (@parseFixed_toBytes order 8 value)
  | .i32, _, _, _, value, _, _ => parsed_one (@parseFixed_toBytes order 4 value)
  | .i64, _, _, _, value, _, _ => parsed_one (@parseFixed_toBytes order 8 value)
  | .str, _, _, _, value, noNul, _ => parsed_one (parseStrAttr_asBytes noNul)
  | .bytes, _, _, _, value, _, _ => parsed_one rfl
  | .enum type, _, _, _, value, _, _ => parsed_one (parseVariant_variantBytes order type value)
  | .repeatedEnum type, _, _, attr, values, _, _ => foldlM_variants order type attr [] values
  | .bitflags repr, _, _, _, value, _, _ => parsed_one (parseReprAttr_toBytes order repr value)
  | .nested group, accepted, distinct, _, value, noNul, short =>
      parsed_one
        (by
          have fit := fits_inner order distinct (short _ (mem_singleton_self _))
          have parsed := group.parseAll_written accepted distinct value noNul
            fun attr member => (fit attr member).2
          rw [← group.fromBytes_encodeAll order fit] at parsed
          exact parsed)
  | .optional inner, accepted, distinct, attr, none, _, _ => rfl
  | .optional inner, accepted, distinct, attr, some value, noNul, short => by
      have innerParsed := inner.parse_written accepted.2 distinct attr value noNul short
      obtain ⟨written, isOne⟩ := inner.written_single order accepted.1 attr value
      rw [isOne] at innerParsed
      change (inner.written order attr value).foldlM _ _ = _
      rw [isOne]
      exact parsed_one (congrArg (Except.map some) (parsed_of_one innerParsed))

theorem Schema.parseAll_written : (schema : Schema) → schema.Accepted → schema.IdsDistinct →
      (value : schema.Value) → schema.NoNuls value →
        (∀ written ∈ schema.written order value, NLA_HDRLEN + written.2.length ≤ 65535) →
          schema.parseAll order (schema.written order value) schema.defaults = .ok value
  | .nil, _, _, _, _, _ => rfl
  | .field attr kind sint rest, accepted, distinct, (value, others), noNul, short => by
      obtain ⟨kindAccepted, sintAllowed, restAccepted⟩ := accepted
      obtain ⟨small, notLater, kindDistinct, restDistinct⟩ := distinct
      obtain ⟨fieldShort, restShort⟩ := forall_mem_append.mp short
      have restParsed := rest.parseAll_written restAccepted restDistinct others noNul.2 restShort
      have taken : ∀ found ∈ kind.fieldWritten order sint attr value,
          kind.guard attr found.masked.1 = true := by
        intro found member
        exact (kind.guard_iff attr found).mpr
          (kind.fieldWritten_type order sint small value found member).1
      have left : ∀ found ∈ rest.written order others, kind.guard attr found.masked.1 = false := by
        intro found member
        obtain ⟨known, _⟩ := rest.written_type order restDistinct others found member
        rw [Bool.eq_false_iff, ne_eq, kind.guard_iff]
        intro same
        exact notLater (same ▸ known)
      have fieldParsed : (kind.fieldWritten order sint attr value).foldlM
              (fun value found => kind.arm order sint value found.2)
              kind.default =
            .ok value := by
        cases sint with
        | true => exact WireKind.sintParse_written order (sintAllowed rfl) attr value
        | false => exact kind.parse_written kindAccepted kindDistinct attr value noNul.1 fieldShort
      calc
        (Schema.field attr kind sint rest).parseAll order
            (kind.fieldWritten order sint attr value ++ rest.written order others)
            (kind.default, rest.defaults)
        _ = ((Schema.field attr kind sint rest).parseAll order
              (kind.fieldWritten order sint attr value)
              (kind.default, rest.defaults) >>=
            (Schema.field attr kind sint rest).parseAll order (rest.written order others)) :=
          Schema.parseAll_append ..
        _ = (Schema.field attr kind sint rest).parseAll order
              (rest.written order others) (value, rest.defaults) := by
          rw [parseAll_taken order _ taken, fieldParsed]
          rfl
        _ = .ok (value, others) := by
          rw [parseAll_left order _ left, restParsed]
          rfl

end

/-!
## Derived messages round-trip

Attributes with unknown types pass by all arms, so inserting them among the
attributes of a message, or of a group inside it, changes nothing.  With the
fields read back from what they wrote, a message is read back whatever unknown
attributes stand between its own.
-/

def WireKind.heldGroup : WireKind → Option Schema
  | .nested group => some group
  | .optional (.nested group) => some group
  | _ => none

/-- The group that an attribute of a type holds. -/
def Schema.groupAt : Schema → Nat → Option Schema
  | .nil, _ => none
  | .field attr kind _ rest, attrType =>
      if attrType = attr then kind.heldGroup else rest.groupAt attrType

variable (order : ByteOrder)

/-- Attributes with unknown types are inserted among the attributes of a
struct, and among those of its groups. -/
inductive Inserted : Schema → List Attribute → List Attribute → Prop where
  | nil {schema : Schema} : Inserted schema [] []
  | same {schema : Schema} {attrs found : List Attribute} (attr : Attribute)
      (rest : Inserted schema attrs found) :
      Inserted schema (attr :: attrs) (attr :: found)
  | unknown {schema : Schema} {attrs found : List Attribute} {attr : Attribute}
      (isUnknown : attr.1 % NLA_F_NET_BYTEORDER ∉ schema.ids) (fits : attr.Fits)
      (rest : Inserted schema attrs found) :
      Inserted schema attrs (attr :: found)
  | inside {schema group : Schema} {attrs found inner innerFound : List Attribute} {attr : Nat}
      (isGroup : schema.groupAt attr = some group) (innerFits : ∀ attr ∈ inner, attr.Fits)
      (insertedInner : Inserted group inner innerFound)
      (short : NLA_HDRLEN + (encodeAll order innerFound).length ≤ 65535)
      (rest : Inserted schema attrs found) :
      Inserted schema ((attr ||| NLA_F_NESTED, encodeAll order inner) :: attrs)
        ((attr ||| NLA_F_NESTED, encodeAll order innerFound) :: found)

theorem Schema.parseAttr_unknown (schema : Schema) (value : schema.Value) {found : Attribute}
    (isUnknown : found.1 % NLA_F_NET_BYTEORDER ∉ schema.ids) :
    schema.parseAttr order value found.masked = .ok value := by
  cases schema with
  | nil => rfl
  | field attr kind sint rest =>
      obtain ⟨value, others⟩ := value
      obtain ⟨isOther, isUnknown⟩ := ne_and_not_mem_of_not_mem_cons isUnknown
      have leftOut : ¬ kind.guard attr found.masked.1 = true := by
        rw [kind.guard_iff]
        exact isOther
      have others := Schema.parseAttr_unknown rest others isUnknown
      exact (if_neg leftOut).trans (congrArg (Except.map _) others)

theorem Schema.mem_ids_of_groupAt {schema group : Schema} {attr : Nat}
    (isGroup : schema.groupAt attr = some group) : attr ∈ schema.ids := by
  cases schema with
  | nil => cases isGroup
  | field fieldAttr kind sint rest =>
      by_cases same : attr = fieldAttr
      · exact same ▸ mem_cons_self ..
      · rw [Schema.groupAt, if_neg same] at isGroup
        exact mem_cons_of_mem _ (Schema.mem_ids_of_groupAt isGroup)

theorem Schema.lt_of_mem_ids {schema : Schema} (distinct : schema.IdsDistinct) {attr : Nat}
    (member : attr ∈ schema.ids) : attr < NLA_F_NET_BYTEORDER := by
  cases schema with
  | nil => cases member
  | field fieldAttr kind sint rest =>
      obtain ⟨small, _, _, restDistinct⟩ := distinct
      rcases mem_cons.mp member with rfl | later
      · exact small
      · exact Schema.lt_of_mem_ids restDistinct later

theorem WireKind.distinct_heldGroup {kind : WireKind} {group : Schema} (distinct : kind.IdsDistinct)
    (holds : kind.heldGroup = some group) : group.IdsDistinct := by
  cases kind with
  | nested inner =>
      cases holds
      exact distinct
  | optional inner =>
      cases inner <;> cases holds
      exact distinct
  | _ => cases holds

theorem Schema.distinct_groupAt {schema group : Schema} (distinct : schema.IdsDistinct) {attr : Nat}
    (isGroup : schema.groupAt attr = some group) : group.IdsDistinct := by
  cases schema with
  | nil => cases isGroup
  | field fieldAttr kind sint rest =>
      obtain ⟨_, _, kindDistinct, restDistinct⟩ := distinct
      by_cases same : attr = fieldAttr
      · rw [Schema.groupAt, if_pos same] at isGroup
        exact WireKind.distinct_heldGroup kindDistinct isGroup
      · rw [Schema.groupAt, if_neg same] at isGroup
        exact Schema.distinct_groupAt restDistinct isGroup

theorem WireKind.arm_group {kind : WireKind} {group : Schema} (holds : kind.heldGroup = some group)
    {payload other : List UInt8}
    (sameRead : group.fromBytes order payload = group.fromBytes order other) (sint : Bool)
    (value : kind.Value) : kind.arm order sint value payload = kind.arm order sint value other := by
  cases kind with
  | nested inner =>
      cases holds
      cases sint with
      | true => rfl
      | false => exact sameRead
  | optional inner =>
      cases inner with
      | nested inner =>
          cases holds
          cases sint with
          | true => rfl
          | false => exact congrArg (Except.map some) sameRead
      | _ => cases holds
  | _ => cases holds

theorem Schema.parseAttr_group {schema group : Schema} {attrType : Nat} {payload other : List UInt8}
    (isGroup : schema.groupAt (attrType % NLA_F_NET_BYTEORDER) = some group)
    (sameRead : group.fromBytes order payload = group.fromBytes order other)
    (value : schema.Value) :
    schema.parseAttr order value (Attribute.masked (attrType, payload)) =
      schema.parseAttr order value (Attribute.masked (attrType, other)) := by
  cases schema with
  | nil => rfl
  | field attr kind sint rest =>
      obtain ⟨value, others⟩ := value
      have guards := kind.guard_iff attr (attrType, payload)
      by_cases same : attrType % NLA_F_NET_BYTEORDER = attr
      · rw [Schema.groupAt, if_pos same] at isGroup
        have taken := guards.mpr same
        have arms := WireKind.arm_group order isGroup sameRead sint value
        exact (if_pos taken).trans ((congrArg (Except.map _) arms).trans (if_pos taken).symm)
      · rw [Schema.groupAt, if_neg same] at isGroup
        have left : ¬ _ = true := fun taken => same (guards.mp taken)
        have later := Schema.parseAttr_group isGroup sameRead others
        exact (if_neg left).trans ((congrArg (Except.map _) later).trans (if_neg left).symm)

theorem Schema.parseAll_cons (schema : Schema) (attr : Attribute) (attrs : List Attribute)
    (value : schema.Value) :
    schema.parseAll order (attr :: attrs) value =
      (schema.parseAttr order value attr.masked >>= schema.parseAll order attrs) :=
  foldlM_cons

theorem Schema.parseAll_cons_congr {schema : Schema} {attr other : Attribute}
    {attrs found : List Attribute}
    (sameFirst : ∀ value, schema.parseAttr order value other.masked =
        schema.parseAttr order value attr.masked)
    (sameRest : ∀ value, schema.parseAll order found value = schema.parseAll order attrs value)
    (value : schema.Value) :
    schema.parseAll order (other :: found) value = schema.parseAll order (attr :: attrs) value := by
  have sameLater : schema.parseAll order found = schema.parseAll order attrs := funext sameRest
  rw [schema.parseAll_cons, schema.parseAll_cons, sameFirst, sameLater]

theorem Inserted.parseAll {schema : Schema} {attrs found : List Attribute}
    (inserted : Inserted order schema attrs found) (distinct : schema.IdsDistinct)
    (fit : ∀ attr ∈ attrs, attr.Fits) :
    (∀ attr ∈ found, attr.Fits) ∧ ∀ value, schema.parseAll order found value =
        schema.parseAll order attrs value := by
  induction inserted with
  | nil => exact ⟨fit, fun _ => rfl⟩
  | same attr rest ih =>
      obtain ⟨attrFits, restFit⟩ := forall_mem_cons.mp fit
      obtain ⟨foundFit, sameRest⟩ := ih distinct restFit
      exact ⟨forall_mem_cons.mpr ⟨attrFits, foundFit⟩,
        Schema.parseAll_cons_congr order (fun _ => rfl) sameRest⟩
  | @unknown schema attrs found attr isUnknown fits rest ih =>
      obtain ⟨foundFit, sameRest⟩ := ih distinct fit
      refine ⟨forall_mem_cons.mpr ⟨fits, foundFit⟩, fun value => ?_⟩
      have passedBy := schema.parseAttr_unknown order value isUnknown
      rw [schema.parseAll_cons, passedBy]
      exact sameRest value
  | @inside schema group attrs found inner innerFound attr isGroup innerFits
      insertedInner short rest innerHypothesis ih =>
      obtain ⟨attrFits, restFit⟩ := forall_mem_cons.mp fit
      obtain ⟨foundFit, sameRest⟩ := ih distinct restFit
      obtain ⟨innerFoundFit, sameInner⟩ :=
        innerHypothesis (Schema.distinct_groupAt distinct isGroup) innerFits
      have sameRead : group.fromBytes order (encodeAll order innerFound) =
            group.fromBytes order (encodeAll order inner) := by
        rw [group.fromBytes_encodeAll order innerFoundFit,
          group.fromBytes_encodeAll order innerFits, sameInner]
      obtain ⟨isAttr, _⟩ := nested_type
        (Schema.lt_of_mem_ids distinct (Schema.mem_ids_of_groupAt isGroup))
      rw [← isAttr] at isGroup
      exact ⟨forall_mem_cons.mpr ⟨⟨attrFits.1, short⟩, foundFit⟩,
        Schema.parseAll_cons_congr order (Schema.parseAttr_group order isGroup sameRead) sameRest⟩

/-- A derived message is read back from the attributes that it writes, also
with attributes of unknown types among them. -/
theorem fromBytes_toBytes {struct : Struct} {schema : Schema}
    (accepted : struct.expand = some schema) (distinct : schema.IdsDistinct) (value : schema.Value)
    (noNuls : schema.NoNuls value)
    (short : ∀ attr ∈ schema.written order value, NLA_HDRLEN + attr.2.length ≤ 65535)
    (builder : MessageBuilder) (aligned : 4 ∣ builder.buf.length) :
    (schema.toBytes order builder value).buf =
        builder.buf ++ encodeAll order (schema.written order value) ∧
      schema.fromBytes order ((schema.toBytes order builder value).buf.drop builder.buf.length) =
        .ok value ∧
      ∀ found, Inserted order schema (schema.written order value) found →
        schema.fromBytes order (encodeAll order found) = .ok value := by
  have kindsAccepted : schema.Accepted := by
    cases struct with
    | nil => cases accepted
    | field args type rest => exact Struct.specs_accepted _ schema accepted
  have fit : ∀ attr ∈ schema.written order value, attr.Fits :=
    fun attr member => ⟨(schema.written_type order distinct value attr member).2, short attr member⟩
  have parsed := schema.parseAll_written order kindsAccepted distinct value noNuls short
  have appended := (schema.appends_written order value).appended builder aligned
  refine ⟨appended, ?_, fun found inserted => ?_⟩
  · rw [appended, drop_left, schema.fromBytes_encodeAll order fit, parsed]
  · obtain ⟨foundFit, sameParsed⟩ := inserted.parseAll order distinct fit
    rw [schema.fromBytes_encodeAll order foundFit, sameParsed, parsed]

/-- An attribute's type with at most one hint. -/
def GenlAttrArgs.plain (attr : Nat) : GenlAttrArgs where
  attr := attr
  repr := none
  bitflags := none
  nested := false
  sint := false

/-- An enum with two variants. -/
def mode : GenlEnum where
  name := "Mode"
  repr := .u16
  discriminants := [1, 2]
  nonEmpty := by decide
  distinct := by decide
  fits := by decide

/-- A group with an optional enum. -/
def channelStruct : Struct :=
  .field { GenlAttrArgs.plain 1 with repr := some .u16 } (.option (.genlEnum mode)) .nil

/-- A message with a number, an optional signed number, a string, a list of
enums and a group. -/
def stationStruct : Struct :=
  .field (.plain 1) .u32
    (.field { GenlAttrArgs.plain 2 with sint := true } (.option .i64) (.field (.plain 3) .string
        (.field { GenlAttrArgs.plain 4 with repr := some .u16 } (.vec (.genlEnum mode))
          (.field { GenlAttrArgs.plain 5 with nested := true }
            (.option (.netlinkAttrs channelStruct)) .nil))))

def channelSchema : Schema :=
  .field 1 (.optional (.enum mode)) false .nil

def stationSchema : Schema :=
  .field 1 .u32 false
    (.field 2 (.optional .i64) true (.field 3 .str false (.field 4 (.repeatedEnum mode) false
          (.field 5 (.optional (.nested channelSchema)) false .nil))))

def channelValue : channelSchema.Value :=
  ((some (1 : Fin 2) : Option (Fin 2)), ())

def stationValue : stationSchema.Value :=
  ((7#32 : BitVec 32), (some (-3#64) : Option (BitVec 64)), ("ap" : String),
    ([0, 1] : List (Fin 2)), (some channelValue : Option channelSchema.Value),
    ())

/-- An unknown attribute stands before the message's attributes and one
before the group's. -/
theorem fromBytes_toBytes_station : stationSchema.fromBytes .little
        (encodeAll .little [(9, [1]), (1, [7, 0, 0, 0]), (2, [253, 255, 255, 255]),
            (3, [97, 112, 0]), (4, [1, 0]), (4, [2, 0]),
            (32773, encodeAll .little [(8, []), (1, [2, 0])])]) =
      .ok stationValue := by
  have isWritten : stationSchema.written .little stationValue =
        [(1, [7, 0, 0, 0]), (2, [253, 255, 255, 255]), (3, [97, 112, 0]), (4, [1, 0]), (4, [2, 0]),
          (5 ||| NLA_F_NESTED, encodeAll .little [(1, [2, 0])])] := by
    rfl
  have distinct : stationSchema.IdsDistinct :=
    ⟨by decide, by decide, trivial, by decide, by decide, trivial,
      by decide, by decide, trivial, by decide, by decide, trivial,
      by decide, by decide, ⟨by decide, by decide, trivial, trivial⟩, trivial⟩
  have noNuls : stationSchema.NoNuls stationValue :=
    ⟨trivial, trivial, (by decide +kernel : NoNul "ap"), trivial, ⟨trivial, trivial⟩, trivial⟩
  have short : ∀ attr ∈ stationSchema.written .little stationValue,
      NLA_HDRLEN + attr.2.length ≤ 65535 := by
    rw [isWritten]
    decide
  obtain ⟨_, _, read⟩ :=
    @fromBytes_toBytes .little stationStruct stationSchema rfl distinct
      stationValue noNuls short (MessageBuilder.new .little 16 5)
      (by decide)
  apply read
  rw [isWritten]
  exact .unknown (by decide) (by decide) (.same _ (.same _ (.same _ (.same _ (.same _
        (.inside rfl (by decide) (.unknown (by decide) (by decide) (.same _ .nil)) (by decide)
          .nil))))))

end Nlink.Genl
