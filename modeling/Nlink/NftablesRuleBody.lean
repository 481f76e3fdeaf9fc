import Nlink.NftablesDiff

namespace Nlink.Nftables

open Foundation Netlink List Attrs

/-!
# Which bodies a comparison tells apart

The names and the presence of attributes survive in a normal form, so bodies
with one normal form have the same attributes in the same places.  Their
numbers, strings and data need not be equal: they only read as the same
attributes.
-/

namespace Attrs

theorem nil_append (others : Attrs) : nil ++ others = others :=
  rfl

variable {order : ByteOrder}

theorem leaf_append (attrType : Nat) (payload : List UInt8) (rest others : Attrs) :
    leaf attrType payload rest ++ others = leaf attrType payload (rest ++ others) :=
  rfl

theorem nest_append (attrType : Nat) (inner rest others : Attrs) :
    nest attrType inner rest ++ others = nest attrType inner (rest ++ others) :=
  rfl

theorem length_payloadsOf (kind : Nat) (attrs : Attrs) :
    (attrs.payloadsOf order kind).length = attrs.kinds.count kind := by
  induction attrs with
  | nil => rfl
  | leaf attrType payload rest ih | nest attrType inner rest _ ih =>
      rw [payloadsOf, kinds, count_cons]
      split <;> simp_all

theorem kinds_perm {first second : Attrs}
    (payloads : ∀ kind, (first.payloadsOf order kind).map (normalizeTlv order) =
        (second.payloadsOf order kind).map (normalizeTlv order)) :
    first.kinds.Perm second.kinds := by
  refine perm_iff_count.mpr fun kind => ?_
  have lengths := congrArg List.length (payloads kind)
  rw [length_map, length_map, length_payloadsOf, length_payloadsOf] at lengths
  exact lengths

end Attrs

theorem NatExpr.attrs_distinct (nat : NatExpr) : nat.attrs.Distinct := by
  unfold NatExpr.attrs
  split <;> split <;> split <;>
    (simp only [be, Attrs.nil_append, leaf_append, Distinct, kinds]; decide)

theorem Verdict.attrs_distinct (verdict : Verdict) : verdict.attrs.Distinct := by
  cases verdict <;>
    (simp only [Verdict.attrs, be, Attrs.str, Attrs.nil_append,
      leaf_append, Distinct, kinds]; decide)

theorem Expr.data_distinct {expr : Expr} {data : Attrs} (isData : expr.data = some data) :
    data.Distinct := by
  cases expr with
  | nat nat =>
      cases isData
      exact nat.attrs_distinct
  | verdict verdict =>
      cases isData
      simp only [be, leaf_append, Attrs.nil_append, Distinct,
        kinds, verdict.attrs_distinct]
      decide
  | masquerade => cases isData
  | redirect port =>
      rw [Expr.data] at isData
      split at isData
      · cases isData
        simp only [be, leaf_append, Attrs.nil_append, Distinct, kinds]
        decide
      · cases isData
  | log logPrefix group =>
      cases isData
      cases logPrefix <;> cases group <;>
        simp only [be, Attrs.str, leaf_append, Attrs.nil_append,
          Distinct, kinds] <;>
        decide
  | _ =>
      cases isData
      simp only [be, Attrs.str, Attrs.nil_append, leaf_append,
        nest_append, Distinct, kinds]
      decide

theorem Expr.attrs_distinct (expr : Expr) : expr.attrs.Distinct := by
  rw [Expr.attrs]
  cases isData : expr.data with
  | none => exact ⟨by decide, not_mem_nil, trivial⟩
  | some data =>
      exact ⟨by decide, (by decide : NFTA_EXPR_NAME ∉ [NFTA_EXPR_DATA]),
        by decide, not_mem_nil, Expr.data_distinct isData, trivial⟩

section Names

variable {order : ByteOrder}

theorem normalizeTlv_of_overrun {bytes : List UInt8}
    (overrun : bytes.length < order.ofBytes (bytes.take 2)) : normalizeTlv order bytes = bytes := by
  refine (stream_or_normal order bytes).resolve_left ?_
  rintro ⟨attrs, rfl⟩
  cases attrs with
  | nil => cases order <;> exact absurd overrun (by decide)
  | cons attr rest =>
      have len : order.ofBytes ((stream order (attr :: rest)).take 2) =
            attr.payload.length + 4 := by
        rw [stream_cons, RawAttr.bytes, List.append_assoc,
          take_left' (by simp), order.ofBytes_toBytes attr.lengthFits]
      have aligned := le_nlaAlign (attr.payload.length + 4)
      rw [len, stream_cons, length_append, RawAttr.bytes_length] at overrun
      omega

def exprNames : List String :=
  ["meta", "cmp", "payload", "immediate", "counter", "limit", "masq", "nat",
    "redir", "reject", "log", "ct", "lookup", "bitwise", "flow_offload"]

theorem name_mem_exprNames (expr : Expr) : expr.name ∈ exprNames := by
  cases expr <;> simp only [Expr.name] <;> decide

theorem normalizeTlv_name (expr : Expr) : normalizeTlv order (asBytes expr.name ++ [0]) =
      asBytes expr.name ++ [0] := by
  have overrun : ∀ name ∈ exprNames, (asBytes name ++ [0]).length <
        order.ofBytes ((asBytes name ++ [0]).take 2) := by
    cases order <;> decide
  exact normalizeTlv_of_overrun (overrun _ (name_mem_exprNames expr))

theorem asBytes_inj {first second : String} (same : asBytes first = asBytes second) :
    first = second :=
  String.toByteArray_inj.mp (ByteArray.ext (Array.toList_inj.mp same))

end Names

section Places

variable {order : ByteOrder}

theorem payloadsOf_name (expr : Expr) : expr.attrs.payloadsOf order NFTA_EXPR_NAME =
      [asBytes expr.name ++ [0]] := by
  rw [Expr.attrs]
  cases expr.data <;> rfl

theorem payloadsOf_data (expr : Expr) : expr.attrs.payloadsOf order NFTA_EXPR_DATA =
      (expr.data.map (Attrs.encode order)).toList := by
  rw [Expr.attrs]
  cases expr.data <;> rfl

theorem NatExpr.blank_eq {first second : NatExpr}
    (perm : first.attrs.kinds.Perm second.attrs.kinds) :
    first.attrs.blank = second.attrs.blank := by
  have addrKind : ∀ nat : NatExpr,
      NFTA_NAT_REG_ADDR_MIN ∈ nat.attrs.kinds ↔ nat.addr.regInUse = true := by
    intro nat
    unfold NatExpr.attrs
    split <;> split <;> split <;>
      simp only [be, Attrs.nil_append, leaf_append, kinds, *] <;>
      decide
  have portKind : ∀ nat : NatExpr,
      NFTA_NAT_REG_PROTO_MIN ∈ nat.attrs.kinds ↔ nat.port.isSome = true := by
    intro nat
    unfold NatExpr.attrs
    split <;> split <;> split <;>
      simp only [be, Attrs.nil_append, leaf_append, kinds, *] <;>
      decide
  have addr : first.addr.regInUse = second.addr.regInUse := by
    rw [Bool.eq_iff_iff, ← addrKind, ← addrKind]
    exact perm.mem_iff
  have port : first.port.isSome = second.port.isSome := by
    rw [Bool.eq_iff_iff, ← portKind, ← portKind]
    exact perm.mem_iff
  have flags : natFlags first = natFlags second := by rw [natFlags, natFlags, addr, port]
  rw [NatExpr.attrs, NatExpr.attrs, addr, port, flags]
  split <;> split <;> split <;>
    simp only [be, Attrs.nil_append, leaf_append, blank]

theorem Verdict.blank_eq {first second : Verdict}
    (perm : first.attrs.kinds.Perm second.attrs.kinds) :
    first.attrs.blank = second.attrs.blank := by
  have counts := perm.length_eq
  cases first <;> cases second <;>
    simp_all [Verdict.attrs, be, Attrs.str, Attrs.nil_append,
      leaf_append, kinds, blank]

theorem blank_append (attrs others : Attrs) :
    (attrs ++ others).blank = attrs.blank ++ others.blank := by
  induction attrs with
  | nil => rfl
  | leaf attrType payload rest ih => exact congrArg (Attrs.leaf attrType []) ih
  | nest attrType inner rest _ ih => exact congrArg (Attrs.nest attrType inner.blank) ih

theorem dataValue_distinct (data : List UInt8) : (Attrs.leaf NFTA_DATA_VALUE data .nil).Distinct :=
  ⟨by decide, not_mem_nil, trivial⟩

theorem verdictValue_distinct (verdict : Verdict) :
    (Attrs.nest NFTA_DATA_VERDICT verdict.attrs .nil).Distinct :=
  ⟨by decide, not_mem_nil, verdict.attrs_distinct, trivial⟩

theorem inner_payloads {first second inner other : Attrs} (kind : Nat) (distinct : inner.Distinct)
    (otherDistinct : other.Distinct) (short : (inner.encode order).length < 256 ^ 2)
    (otherShort : (other.encode order).length < 256 ^ 2)
    (isInner : first.payloadsOf order kind = [inner.encode order])
    (isOther : second.payloadsOf order kind = [other.encode order])
    (payloads : ∀ kind, (first.payloadsOf order kind).map (normalizeTlv order) =
        (second.payloadsOf order kind).map (normalizeTlv order)) :
    ∀ kind, (inner.payloadsOf order kind).map (normalizeTlv order) =
        (other.payloadsOf order kind).map (normalizeTlv order) := by
  have values := payloads kind
  rw [isInner, isOther] at values
  exact (normalizeTlv_encode_eq_iff order distinct otherDistinct short
    otherShort).mp (List.cons.inj values).1

variable {first second : Expr}

/-- Data with one normal form under one name has its attributes in the same
places. -/
theorem data_blank_eq {data other : Attrs} (named : first.name = second.name)
    (firstData : first.data = some data) (secondData : second.data = some other)
    (firstShort : (data.encode order).length < 256 ^ 2)
    (secondShort : (other.encode order).length < 256 ^ 2)
    (same : normalizeTlv order (data.encode order) = normalizeTlv order (other.encode order)) :
    data.blank = other.blank := by
  have payloads :=
    (normalizeTlv_encode_eq_iff order (Expr.data_distinct firstData)
      (Expr.data_distinct secondData) firstShort secondShort).mp same
  have perm := kinds_perm payloads
  cases first <;> cases second <;> try simp only [Expr.name, String.reduceEq] at named
  case nat.nat =>
    cases firstData
    cases secondData
    exact NatExpr.blank_eq perm
  case verdict.verdict target otherTarget =>
    cases firstData
    cases secondData
    have valueShort := short_inner (short_rest firstShort)
    have otherShort := short_inner (short_rest secondShort)
    have values :=
      inner_payloads NFTA_IMMEDIATE_DATA (verdictValue_distinct target)
        (verdictValue_distinct otherTarget) valueShort otherShort
        rfl rfl payloads
    have targets :=
      inner_payloads NFTA_DATA_VERDICT target.attrs_distinct otherTarget.attrs_distinct
        (short_inner valueShort) (short_inner otherShort)
        rfl rfl values
    have same := Verdict.blank_eq (kinds_perm targets)
    simp only [be, Attrs.nil_append, leaf_append, blank, same]
  case immediate.verdict dreg value target =>
    -- A value and a verdict are attributes of different types.
    cases firstData
    cases secondData
    have values :=
      inner_payloads NFTA_IMMEDIATE_DATA (dataValue_distinct value) (verdictValue_distinct target)
        (short_inner (short_rest firstShort))
        (short_inner (short_rest secondShort)) rfl rfl payloads
    exact absurd (kinds_perm values)
      (by decide : ¬ [NFTA_DATA_VALUE].Perm [NFTA_DATA_VERDICT])
  case verdict.immediate target dreg value =>
    cases firstData
    cases secondData
    have values :=
      inner_payloads NFTA_IMMEDIATE_DATA (verdictValue_distinct target) (dataValue_distinct value)
        (short_inner (short_rest firstShort))
        (short_inner (short_rest secondShort)) rfl rfl payloads
    exact absurd (kinds_perm values)
      (by decide : ¬ [NFTA_DATA_VERDICT].Perm [NFTA_DATA_VALUE])
  case masquerade.masquerade => cases firstData
  case redirect.redirect port otherPort =>
    rw [Expr.data] at firstData secondData
    split at firstData <;> cases firstData
    split at secondData <;> cases secondData
    rfl
  case log.log logPrefix group otherPrefix otherGroup =>
    cases firstData
    cases secondData
    cases logPrefix <;> cases group <;> cases otherPrefix <;>
      cases otherGroup <;>
      simp only [be, Attrs.str, Attrs.nil_append, leaf_append,
        kinds, blank] at perm ⊢ <;>
      exact absurd perm (by decide)
  all_goals
    cases firstData
    cases secondData
    simp only [be, Attrs.str, Attrs.nil_append, leaf_append,
      nest_append, blank]

theorem attrs_blank_eq (firstShort : (first.attrs.encode order).length < 256 ^ 2)
    (secondShort : (second.attrs.encode order).length < 256 ^ 2)
    (same : normalizeTlv order (first.attrs.encode order) =
        normalizeTlv order (second.attrs.encode order)) :
    first.attrs.blank = second.attrs.blank := by
  have payloads :=
    (normalizeTlv_encode_eq_iff order first.attrs_distinct
      second.attrs_distinct firstShort secondShort).mp same
  have named : first.name = second.name := by
    have names := payloads NFTA_EXPR_NAME
    simp only [payloadsOf_name, map_cons, map_nil, normalizeTlv_name, List.cons.injEq,
      and_true, append_cancel_right_eq] at names
    exact asBytes_inj names
  have nested := payloads NFTA_EXPR_DATA
  rw [payloadsOf_data, payloadsOf_data] at nested
  rw [Expr.attrs] at firstShort secondShort ⊢
  rw [Expr.attrs]
  cases firstData : first.data with
  | none =>
      cases secondData : second.data with
      | none => rfl
      | some other =>
          rw [firstData, secondData] at nested
          cases nested
  | some data =>
      cases secondData : second.data with
      | none =>
          rw [firstData, secondData] at nested
          cases nested
      | some other =>
          rw [firstData, secondData] at nested
          rw [firstData] at firstShort
          rw [secondData] at secondShort
          have dataSame := (List.cons.inj nested).1
          have places :=
            data_blank_eq named firstData secondData
              (short_inner (short_rest firstShort))
              (short_inner (short_rest secondShort)) dataSame
          rw [blank_append, blank_append]
          simp only [Attrs.str, blank, places]

theorem normalizeTlv_attrs_eq_iff (firstShort : (first.attrs.encode order).length < 256 ^ 2)
    (secondShort : (second.attrs.encode order).length < 256 ^ 2) :
    normalizeTlv order (first.attrs.encode order) = normalizeTlv order (second.attrs.encode order) ↔
      Alike order first.attrs second.attrs := by
  constructor
  · intro same
    exact alike_of_normalizeTlv_eq
      (attrs_blank_eq firstShort secondShort same) first.attrs_distinct
      second.attrs_distinct firstShort secondShort same
  · intro alike
    exact alike.normalizeTlv_eq first.attrs_distinct second.attrs_distinct firstShort secondShort

end Places

section Bodies

variable (order : ByteOrder)

/-- The expressions of a rule are short enough for their lengths to be
written. -/
def Rule.Short (rule : Rule) : Prop :=
  ∀ expr ∈ rule.exprs, (writeExpr order ⟨[]⟩ expr).buf.length < 2 ^ 16

def Rule.encodings (rule : Rule) : List (List UInt8) :=
  rule.exprs.map fun expr => (writeExpr order ⟨[]⟩ expr).buf

/-- The comparison of bodies does not identify two rules unless they encode the
same expressions. -/
def Distinguishes (first second : Rule) : Prop :=
  normalizeTlv order (lowerToExpressionBytes order first) =
      normalizeTlv order (lowerToExpressionBytes order second) →
    first.encodings order = second.encodings order

/-- The rules encode different expressions, with the same attributes in the same
places, and payloads that read as the same attributes. -/
def Confusable (first second : Rule) : Prop :=
  first.encodings order ≠ second.encodings order ∧ List.Forall₂
      (fun expr other => Alike order expr.attrs other.attrs)
      first.exprs second.exprs

variable {order}

theorem short_attrs {expr : Expr} (short : (writeExpr order ⟨[]⟩ expr).buf.length < 2 ^ 16) :
    (expr.attrs.encode order).length + 4 < 256 ^ 2 := by
  rw [writeExpr_buf] at short
  exact short_payload order short

theorem exists_stream_expressions {exprs : List Expr}
    (short : ∀ expr ∈ exprs, (writeExpr order ⟨[]⟩ expr).buf.length < 2 ^ 16) :
    ∃ raws, expressionBytes order exprs = stream order raws ∧ ∀ kind, payloadsOf kind raws =
            if NFTA_LIST_ELEM = kind then
              exprs.map fun expr => expr.attrs.encode order
            else
              [] := by
  induction exprs with
  | nil => exact ⟨[], rfl, fun kind => (ite_self []).symm⟩
  | cons expr exprs ih =>
      obtain ⟨first, later⟩ := forall_mem_cons.mp short
      have small : NFTA_LIST_ELEM < NLA_F_NET_BYTEORDER := by decide
      obtain ⟨raws, isStream, payloads⟩ :=
        exists_stream_cons order (nested_lt small)
          (nested_kind small) (short_attrs first) (ih later)
      refine ⟨raws, ?_, fun kind => ?_⟩
      · rw [← isStream, expressionBytes, flatMap_cons, writeExpr_buf,
          Attrs.encode, Attrs.encode, List.append_nil]
        rfl
      · rw [payloads]
        split <;> rfl

theorem map_normalizeTlv_eq_iff {exprs others : List Expr}
    (short : ∀ expr ∈ exprs, (writeExpr order ⟨[]⟩ expr).buf.length < 2 ^ 16)
    (othersShort : ∀ expr ∈ others, (writeExpr order ⟨[]⟩ expr).buf.length < 2 ^ 16) :
    (exprs.map fun expr => normalizeTlv order (expr.attrs.encode order)) =
        (others.map fun expr => normalizeTlv order (expr.attrs.encode order)) ↔
      List.Forall₂ (fun expr other => Alike order expr.attrs other.attrs) exprs others := by
  induction exprs generalizing others with
  | nil => cases others <;> simp
  | cons expr exprs ih =>
      cases others with
      | nil => simp
      | cons other others =>
          obtain ⟨first, later⟩ := forall_mem_cons.mp short
          obtain ⟨otherFirst, otherLater⟩ := forall_mem_cons.mp othersShort
          have heads :=
            normalizeTlv_attrs_eq_iff
              (Nat.lt_of_le_of_lt (Nat.le_add_right _ 4) (short_attrs first))
              (Nat.lt_of_le_of_lt (Nat.le_add_right _ 4) (short_attrs otherFirst))
          rw [map_cons, map_cons, List.cons.injEq, forall₂_cons, heads, ih later otherLater]

theorem normalizeTlv_lower_eq_iff {first second : Rule} (firstShort : first.Short order)
    (secondShort : second.Short order) :
    normalizeTlv order (lowerToExpressionBytes order first) =
        normalizeTlv order (lowerToExpressionBytes order second) ↔
      List.Forall₂ (fun expr other => Alike order expr.attrs other.attrs)
        first.exprs second.exprs := by
  obtain ⟨firstRaws, firstStream, firstPayloads⟩ := exists_stream_expressions firstShort
  obtain ⟨secondRaws, secondStream, secondPayloads⟩ := exists_stream_expressions secondShort
  rw [lowerToExpressionBytes_eq, lowerToExpressionBytes_eq, firstStream, secondStream,
    normalizeTlv_stream_eq_iff, ← map_normalizeTlv_eq_iff firstShort secondShort]
  simp only [firstPayloads, secondPayloads]
  constructor
  · intro same
    have elements := same NFTA_LIST_ELEM
    rw [if_pos rfl, if_pos rfl, map_map, map_map] at elements
    exact elements
  · intro same kind
    split
    · rw [map_map, map_map]
      exact same
    · rfl

theorem mem_rulesToReplace_iff {declared : DeclaredTable} {currentRules : List RuleInfo}
    {rule : DeclaredRule} {key : String} {current : RuleInfo}
    (isDeclared : rule ∈ declared.rulesIn rule.chain) (isKey : rule.handleKey = some key)
    (isCurrent : kernelByKey (currentRules.filter fun current => current.chain = rule.chain) key =
        some current) :
    (declared.name, declared.family, rule.chain, current.handle, rule) ∈
        (diffDeclaredChain order declared currentRules rule.chain).rulesToReplace ↔
      normalizeTlv order (lowerToExpressionBytes order rule.body) ≠
        normalizeTlv order current.expressionBytes := by
  have replaced : replacement order declared
          (currentRules.filter fun current => current.chain = rule.chain) rule =
        if bodyDiffers order rule.body current then
          some (declared.name, declared.family, rule.chain, current.handle, rule)
        else
          none := by
    simp only [replacement, ruleAction, isKey, isCurrent]
    by_cases differs : bodyDiffers order rule.body current = true
    · rw [if_pos differs, if_pos differs]
    · rw [if_neg differs, if_neg differs]
  have differs : bodyDiffers order rule.body current = true ↔
        normalizeTlv order (lowerToExpressionBytes order rule.body) ≠
          normalizeTlv order current.expressionBytes :=
    decide_eq_true_iff
  rw [← differs]
  constructor
  · intro member
    obtain ⟨other, _, isReplaced⟩ := mem_filterMap.mp member
    -- The entry names its rule.
    have same : other = rule := by
      rw [replacement] at isReplaced
      split at isReplaced
      · have entries := Option.some.inj isReplaced
        simp only [Prod.mk.injEq] at entries
        exact entries.2.2.2.2
      · cases isReplaced
    rw [same, replaced] at isReplaced
    exact (Option.ite_none_right_eq_some.mp isReplaced).1
  · intro bodyDiffers
    refine mem_filterMap.mpr ⟨rule, isDeclared, ?_⟩
    rw [replaced, if_pos bodyDiffers]

/-- The comparison of bodies distinguishes two rules, and a declared body that
differs from the kernel's is replaced, if and only if the rules are not
confusable. -/
theorem distinguishes_iff (order : ByteOrder) (first second : Rule) (firstShort : first.Short order)
    (secondShort : second.Short order) :
    (Distinguishes order first second ↔ ¬ Confusable order first second) ∧
      ∀ (declared : DeclaredTable) (currentRules : List RuleInfo)
        (rule : DeclaredRule) (key : String) (current : RuleInfo),
        rule ∈ declared.rulesIn rule.chain → rule.body = first →
        rule.handleKey = some key →
        kernelByKey (currentRules.filter fun current => current.chain = rule.chain)
            key = some current →
        current.expressionBytes = lowerToExpressionBytes order second →
        ((first.encodings order ≠ second.encodings order →
            (declared.name, declared.family, rule.chain, current.handle, rule) ∈
              (diffDeclaredChain order declared currentRules rule.chain).rulesToReplace) ↔
          ¬ Confusable order first second) := by
  have alike := normalizeTlv_lower_eq_iff firstShort secondShort
  have distinguishes : Distinguishes order first second ↔ ¬ Confusable order first second := by
    rw [Distinguishes, Confusable, alike, not_and', not_not]
  refine ⟨distinguishes, ?_⟩
  intro declared currentRules rule key current isDeclared isBody isKey isCurrent isKernel
  rw [mem_rulesToReplace_iff isDeclared isKey isCurrent, isBody, isKernel,
    ← distinguishes, Distinguishes, not_imp_not]

end Bodies

/-- Drop packets from a source address. -/
def dropFrom (address : List UInt8) : Rule :=
  { Rule.new "filter" "input" with
    exprs := [.payload .r0 .network 12 4, .cmp .r0 .eq address, .verdict .drop] }

/-- Rules for two hosts of a network. -/
theorem distinguishes_iff_hosts : (dropFrom [10, 0, 0, 1]).Short .little ∧
      (Distinguishes .little (dropFrom [10, 0, 0, 1]) (dropFrom [10, 0, 0, 2]) ↔
        ¬ Confusable .little (dropFrom [10, 0, 0, 1]) (dropFrom [10, 0, 0, 2])) := by
  have firstShort : (dropFrom [10, 0, 0, 1]).Short .little := by
    unfold Rule.Short
    decide
  have secondShort : (dropFrom [10, 0, 0, 2]).Short .little := by
    unfold Rule.Short
    decide
  exact ⟨firstShort, (distinguishes_iff .little _ _ firstShort secondShort).1⟩

variable {order : ByteOrder}

theorem Attrs.Alike.refl (attrs : Attrs) : Alike order attrs attrs := by
  induction attrs with
  | nil => exact .nil
  | leaf attrType payload rest ih => exact .leaf attrType (.refl payload) ih
  | nest attrType inner rest innerHypothesis ih => exact .nest attrType innerHypothesis ih

theorem nil_fits : ([] : List UInt8).length + 4 < 256 ^ 2 := by decide

theorem nil_padded : ([] : List UInt8).length = nlaAlign (0 + 4) - (0 + 4) := rfl

/-- An attribute without payload. -/
def emptyAttr (attrType : Nat) (typeFits : attrType < 256 ^ 2) : RawAttr where
  attrType := attrType
  payload := []
  pad := []
  typeFits := typeFits
  lengthFits := nil_fits
  padded := nil_padded

theorem SameAttrs.of_payloads (first second : List RawAttr)
    (same : ∀ kind, payloadsOf kind first = payloadsOf kind second) :
    SameAttrs order (Nftables.stream order first) (Nftables.stream order second) := by
  refine .stream first second (fun kind => by rw [same]) ?_
  intro kind pair member
  rw [same] at member
  have mapped : (payloadsOf kind second).map id = (payloadsOf kind second).map id := rfl
  have equal : pair.1 = pair.2 := (map_eq_map_iff_zip.mp mapped).2 pair member
  rw [equal]
  exact .refl pair.2

theorem Expr.cmp_alike (sreg : Register) (op : CmpOp) {data other : List UInt8}
    (same : SameAttrs order data other) :
    Alike order (Expr.cmp sreg op data).attrs (Expr.cmp sreg op other).attrs :=
  .leaf _ (.refl _)
    (.nest _ (.leaf _ (.refl _) (.leaf _ (.refl _) (.nest _ (.leaf _ same .nil) .nil))) .nil)

theorem sameAttrs_address : SameAttrs .little [4, 0, 0, 64] [4, 0, 0, 0] := by
  refine SameAttrs.of_payloads [emptyAttr 0x4000 (by decide)]
    [emptyAttr 0 (by decide)] fun kind => ?_
  rw [payloadsOf_cons, payloadsOf_cons]
  rfl

/-- A rule for one of these addresses passes for a rule for the other. -/
theorem not_distinguishes_addresses : (dropFrom [4, 0, 0, 64]).Short .little ∧
      (dropFrom [4, 0, 0, 0]).Short .little ∧
      ¬ Distinguishes .little (dropFrom [4, 0, 0, 64]) (dropFrom [4, 0, 0, 0]) := by
  have firstShort : (dropFrom [4, 0, 0, 64]).Short .little := by
    unfold Rule.Short
    decide
  have secondShort : (dropFrom [4, 0, 0, 0]).Short .little := by
    unfold Rule.Short
    decide
  refine ⟨firstShort, secondShort, fun distinguishes => ?_⟩
  have same :=
    distinguishes
      ((normalizeTlv_lower_eq_iff firstShort secondShort).mpr
        (.cons (.refl _) (.cons (Expr.cmp_alike _ _ sameAttrs_address) (.cons (.refl _) .nil))))
  revert same
  decide

end Nlink.Nftables
