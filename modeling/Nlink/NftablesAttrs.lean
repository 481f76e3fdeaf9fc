import Nlink.NftablesTlv

namespace Nlink.Nftables

open Foundation Netlink List

/-!
# Trees of attributes

What the library writes are trees of attributes with at most one of a type in
a place.  Two trees that have the same attributes in the same places have one
normal form exactly when their payloads read as the same attributes, place by
place.
-/

/-- Attributes one after the other, some of which are nests of attributes. -/
inductive Attrs where
  | nil
  | leaf (attrType : Nat) (payload : List UInt8) (rest : Attrs)
  | nest (attrType : Nat) (inner rest : Attrs)

namespace Attrs

/-- One list of attributes behind another. -/
def append : Attrs → Attrs → Attrs
  | .nil, others => others
  | .leaf attrType payload rest, others => .leaf attrType payload (rest.append others)
  | .nest attrType inner rest, others => .nest attrType inner (rest.append others)

instance : Append Attrs :=
  ⟨append⟩

/-- A number in network byte order. -/
def be (width attrType value : Nat) : Attrs :=
  .leaf attrType (ByteOrder.big.toBytes width value) .nil

def str (attrType : Nat) (value : String) : Attrs :=
  .leaf attrType (asBytes value ++ [0]) .nil

/-- The types of the outer attributes, without the nest bit. -/
def kinds : Attrs → List Nat
  | .nil => []
  | .leaf attrType _ rest | .nest attrType _ rest => attrType :: rest.kinds

/-- Types are free of hint bits, and no place has two attributes of a type. -/
def Distinct : Attrs → Prop
  | .nil => True
  | .leaf attrType _ rest => attrType < NLA_F_NET_BYTEORDER ∧ attrType ∉ rest.kinds ∧ rest.Distinct
  | .nest attrType inner rest =>
      attrType < NLA_F_NET_BYTEORDER ∧ attrType ∉ rest.kinds ∧ inner.Distinct ∧ rest.Distinct

/-- The attributes without their payloads. -/
def blank : Attrs → Attrs
  | .nil => .nil
  | .leaf attrType _ rest => .leaf attrType [] rest.blank
  | .nest attrType inner rest => .nest attrType inner.blank rest.blank

theorem append_nil (attrs : Attrs) : attrs ++ nil = attrs := by
  induction attrs with
  | nil => rfl
  | leaf attrType payload rest ih => exact congrArg (leaf attrType payload) ih
  | nest attrType inner rest _ ih => exact congrArg (nest attrType inner) ih

theorem append_assoc (first second third : Attrs) :
    first ++ second ++ third = first ++ (second ++ third) := by
  induction first with
  | nil => rfl
  | leaf attrType payload rest ih => exact congrArg (leaf attrType payload) ih
  | nest attrType inner rest _ ih => exact congrArg (nest attrType inner) ih

section Encoding

variable (order : ByteOrder)

/-- One attribute as the builder writes it. -/
def attrBytes (attrType : Nat) (payload : List UInt8) : List UInt8 :=
  order.toBytes 2 (min (4 + payload.length) 65535) ++
    (order.toBytes 2 attrType ++ (payload ++ padding (4 + payload.length)))

def encode : Attrs → List UInt8
  | .nil => []
  | .leaf attrType payload rest => attrBytes order attrType payload ++ rest.encode
  | .nest attrType inner rest =>
      attrBytes order (attrType ||| NLA_F_NESTED) inner.encode ++ rest.encode

/-- The payloads of the outer attributes of a kind. -/
def payloadsOf (kind : Nat) : Attrs → List (List UInt8)
  | .nil => []
  | .leaf attrType payload rest =>
      if attrType = kind then payload :: rest.payloadsOf kind else rest.payloadsOf kind
  | .nest attrType inner rest =>
      if attrType = kind then inner.encode order :: rest.payloadsOf kind else rest.payloadsOf kind

/-- The same attributes in the same places, with payloads that read as the same
attributes. -/
inductive Alike : Attrs → Attrs → Prop
  | nil : Alike .nil .nil
  | leaf (attrType : Nat) {first second : List UInt8} {rest others : Attrs}
      (payloads : SameAttrs order first second) (later : Alike rest others) :
      Alike (.leaf attrType first rest) (.leaf attrType second others)
  | nest (attrType : Nat) {first second rest others : Attrs} (inner : Alike first second)
      (later : Alike rest others) :
      Alike (.nest attrType first rest) (.nest attrType second others)

/-- An attribute takes its header and its payload, up to the next word. -/
theorem attrBytes_length (attrType : Nat) (payload : List UInt8) :
    (attrBytes order attrType payload).length = nlaAlign (payload.length + 4) := by
  have aligned := le_nlaAlign (4 + payload.length)
  simp only [attrBytes, padding, length_append, ByteOrder.toBytes_length, length_replicate]
  rw [Nat.add_comm payload.length 4]
  omega

theorem dvd_length_encode (attrs : Attrs) : 4 ∣ (attrs.encode order).length := by
  induction attrs with
  | nil => exact Nat.dvd_zero 4
  | leaf attrType payload rest ih | nest attrType inner rest _ ih =>
      rw [encode, length_append, attrBytes_length]
      exact Nat.dvd_add (dvd_nlaAlign _) ih

theorem encode_append (attrs others : Attrs) : (attrs ++ others).encode order =
      attrs.encode order ++ others.encode order := by
  induction attrs with
  | nil => rfl
  | leaf attrType payload rest ih =>
      change attrBytes order attrType payload ++ (rest ++ others).encode order = _
      rw [ih, encode, List.append_assoc]
  | nest attrType inner rest _ ih =>
      change attrBytes order _ (inner.encode order) ++ (rest ++ others).encode order = _
      rw [ih, encode, List.append_assoc]

variable {attrType : Nat}

theorem exists_rawAttr (payload : List UInt8) (typeFits : attrType < 256 ^ 2)
    (lengthFits : payload.length + 4 < 256 ^ 2) :
    ∃ attr : RawAttr, attr.bytes order = attrBytes order attrType payload ∧
        attr.kind = attrType % NLA_F_NET_BYTEORDER ∧
        attr.payload = payload := by
  refine
    ⟨{ attrType := attrType
       payload := payload
       pad := padding (4 + payload.length)
       typeFits := typeFits
       lengthFits := lengthFits
       padded := by rw [padding, length_replicate, Nat.add_comm 4] }, ?_, rfl, rfl⟩
  have len : min (4 + payload.length) 65535 = payload.length + 4 := by omega
  simp only [RawAttr.bytes, attrBytes, len]

theorem nested_kind (small : attrType < NLA_F_NET_BYTEORDER) :
    (attrType ||| NLA_F_NESTED) % NLA_F_NET_BYTEORDER = attrType := by
  have bits : NLA_F_NET_BYTEORDER = 2 ^ 14 := rfl
  rw [bits] at small ⊢
  rw [Nat.or_mod_two_pow, Nat.mod_eq_of_lt small]
  exact Nat.or_zero attrType

theorem nested_lt (small : attrType < NLA_F_NET_BYTEORDER) : attrType ||| NLA_F_NESTED < 256 ^ 2 :=
  Nat.or_lt_two_pow (n := 16) (Nat.lt_trans small (by decide)) (by decide)

theorem short_rest {bytes rest : List UInt8} (short : (bytes ++ rest).length < 256 ^ 2) :
    rest.length < 256 ^ 2 := by
  rw [length_append] at short
  omega

variable {payload rest : List UInt8}

theorem short_payload
    (short : (attrBytes order attrType payload ++ rest).length < 256 ^ 2) :
    payload.length + 4 < 256 ^ 2 := by
  have aligned := le_nlaAlign (payload.length + 4)
  rw [length_append, attrBytes_length] at short
  omega

theorem exists_stream_cons {attrType kind : Nat} {payloads : Nat → List (List UInt8)}
    (typeFits : attrType < 256 ^ 2) (ofKind : attrType % NLA_F_NET_BYTEORDER = kind)
    (lengthFits : payload.length + 4 < 256 ^ 2)
    (isStream : ∃ raws, rest = stream order raws ∧
        ∀ wanted, Nftables.payloadsOf wanted raws = payloads wanted) :
    ∃ raws, attrBytes order attrType payload ++ rest = stream order raws ∧ ∀ wanted,
          Nftables.payloadsOf wanted raws =
            if kind = wanted then
              payload :: payloads wanted
            else
              payloads wanted := by
  obtain ⟨raws, rfl, agree⟩ := isStream
  obtain ⟨attr, bytes, isKind, isPayload⟩ := exists_rawAttr order payload typeFits lengthFits
  refine ⟨attr :: raws, ?_, fun wanted => ?_⟩
  · rw [stream_cons, bytes]
  · rw [payloadsOf_cons, isKind, ofKind, isPayload, agree]

theorem exists_stream_encode {attrs : Attrs} (distinct : attrs.Distinct)
    (short : (attrs.encode order).length < 256 ^ 2) :
    ∃ raws, attrs.encode order = stream order raws ∧
        ∀ kind, Nftables.payloadsOf kind raws = attrs.payloadsOf order kind := by
  induction attrs with
  | nil => exact ⟨[], rfl, fun _ => rfl⟩
  | leaf attrType payload rest ih =>
      obtain ⟨small, _, restDistinct⟩ := distinct
      exact exists_stream_cons order (Nat.lt_trans small (by decide))
        (Nat.mod_eq_of_lt small) (short_payload order short) (ih restDistinct (short_rest short))
  | nest attrType inner rest _ ih =>
      obtain ⟨small, _, _, restDistinct⟩ := distinct
      exact exists_stream_cons order (nested_lt small) (nested_kind small)
        (short_payload order short) (ih restDistinct (short_rest short))

variable {first second : Attrs}

theorem normalizeTlv_encode_eq_iff (firstDistinct : first.Distinct)
    (secondDistinct : second.Distinct) (firstShort : (first.encode order).length < 256 ^ 2)
    (secondShort : (second.encode order).length < 256 ^ 2) :
    normalizeTlv order (first.encode order) = normalizeTlv order (second.encode order) ↔ ∀ kind,
        (first.payloadsOf order kind).map (normalizeTlv order) =
          (second.payloadsOf order kind).map (normalizeTlv order) := by
  obtain ⟨firstRaws, firstStream, firstPayloads⟩ :=
    exists_stream_encode order firstDistinct firstShort
  obtain ⟨secondRaws, secondStream, secondPayloads⟩ :=
    exists_stream_encode order secondDistinct secondShort
  rw [firstStream, secondStream, normalizeTlv_stream_eq_iff]
  simp only [firstPayloads, secondPayloads]

variable {order}

theorem short_inner
    (short : (attrBytes order attrType payload ++ rest).length < 256 ^ 2) :
    payload.length < 256 ^ 2 :=
  Nat.lt_of_le_of_lt (Nat.le_add_right _ 4) (short_payload order short)

theorem payloadsOf_of_not_mem {kind : Nat} {attrs : Attrs} (absent : kind ∉ attrs.kinds) :
    attrs.payloadsOf order kind = [] := by
  induction attrs with
  | nil => rfl
  | leaf attrType payload rest ih | nest attrType inner rest _ ih =>
      rw [kinds, mem_cons, not_or] at absent
      rw [payloadsOf, if_neg (Ne.symm absent.1), ih absent.2]

theorem Alike.normalizeTlv_eq (alike : Alike order first second) (firstDistinct : first.Distinct)
    (secondDistinct : second.Distinct) (firstShort : (first.encode order).length < 256 ^ 2)
    (secondShort : (second.encode order).length < 256 ^ 2) :
    normalizeTlv order (first.encode order) = normalizeTlv order (second.encode order) := by
  induction alike with
  | nil => rfl
  | leaf attrType payloads later ih =>
      rw [normalizeTlv_encode_eq_iff order firstDistinct secondDistinct firstShort secondShort]
      rw [encode] at firstShort secondShort
      have rests :=
        (normalizeTlv_encode_eq_iff order firstDistinct.2.2 secondDistinct.2.2
          (short_rest firstShort) (short_rest secondShort)).mp
          (ih firstDistinct.2.2 secondDistinct.2.2 (short_rest firstShort) (short_rest secondShort))
      have heads := (normalizeTlv_eq_iff order _ _).mpr payloads
      intro kind
      rw [payloadsOf, payloadsOf]
      split
      · rw [map_cons, map_cons, heads, rests]
      · exact rests kind
  | nest attrType inner later innerHypothesis ih =>
      rw [normalizeTlv_encode_eq_iff order firstDistinct secondDistinct firstShort secondShort]
      rw [encode] at firstShort secondShort
      have rests :=
        (normalizeTlv_encode_eq_iff order firstDistinct.2.2.2
          secondDistinct.2.2.2 (short_rest firstShort)
          (short_rest secondShort)).mp
          (ih firstDistinct.2.2.2 secondDistinct.2.2.2
            (short_rest firstShort) (short_rest secondShort))
      have heads :=
        innerHypothesis firstDistinct.2.2.1 secondDistinct.2.2.1
          (short_inner firstShort) (short_inner secondShort)
      intro kind
      rw [payloadsOf, payloadsOf]
      split
      · rw [map_cons, map_cons, heads, rests]
      · exact rests kind

theorem payloads_cons {firstPayload secondPayload : List UInt8} {rest others : Attrs}
    (firstAbsent : attrType ∉ rest.kinds) (secondAbsent : attrType ∉ others.kinds)
    (same : ∀ kind,
      (if attrType = kind then
          firstPayload :: rest.payloadsOf order kind
        else
          rest.payloadsOf order kind).map (normalizeTlv order) =
        (if attrType = kind then
            secondPayload :: others.payloadsOf order kind
          else
            others.payloadsOf order kind).map (normalizeTlv order)) :
    normalizeTlv order firstPayload = normalizeTlv order secondPayload ∧ ∀ kind,
        (rest.payloadsOf order kind).map (normalizeTlv order) =
          (others.payloadsOf order kind).map (normalizeTlv order) := by
  constructor
  · have here := same attrType
    rw [if_pos rfl, if_pos rfl, map_cons, map_cons] at here
    exact (List.cons.inj here).1
  · intro kind
    by_cases isKind : attrType = kind
    · rw [← isKind, payloadsOf_of_not_mem firstAbsent, payloadsOf_of_not_mem secondAbsent]
    · have here := same kind
      rw [if_neg isKind, if_neg isKind] at here
      exact here

/-- Attributes in the same places are alike if they have one normal form. -/
theorem alike_of_normalizeTlv_eq (places : first.blank = second.blank)
    (firstDistinct : first.Distinct) (secondDistinct : second.Distinct)
    (firstShort : (first.encode order).length < 256 ^ 2)
    (secondShort : (second.encode order).length < 256 ^ 2)
    (same : normalizeTlv order (first.encode order) = normalizeTlv order (second.encode order)) :
    Alike order first second := by
  induction first generalizing second with
  | nil =>
      cases second with
      | nil => exact .nil
      | leaf _ _ _ => cases places
      | nest _ _ _ => cases places
  | leaf attrType payload rest ih =>
      cases second with
      | nil => cases places
      | leaf otherType other others =>
          injection places with sameType _ laterPlaces
          subst sameType
          have payloads :=
            (normalizeTlv_encode_eq_iff order firstDistinct secondDistinct
              firstShort secondShort).mp same
          obtain ⟨_, firstAbsent, restDistinct⟩ := firstDistinct
          obtain ⟨_, secondAbsent, othersDistinct⟩ := secondDistinct
          have restShort := short_rest firstShort
          have othersShort := short_rest secondShort
          obtain ⟨heads, rests⟩ := payloads_cons firstAbsent secondAbsent payloads
          exact .leaf attrType ((normalizeTlv_eq_iff order _ _).mp heads)
            (ih laterPlaces restDistinct othersDistinct restShort othersShort
              ((normalizeTlv_encode_eq_iff order restDistinct othersDistinct
                restShort othersShort).mpr rests))
      | nest _ _ _ => cases places
  | nest attrType inner rest innerHypothesis ih =>
      cases second with
      | nil => cases places
      | leaf _ _ _ => cases places
      | nest otherType other others =>
          injection places with sameType innerPlaces laterPlaces
          subst sameType
          have payloads :=
            (normalizeTlv_encode_eq_iff order firstDistinct secondDistinct
              firstShort secondShort).mp same
          obtain ⟨_, firstAbsent, innerDistinct, restDistinct⟩ := firstDistinct
          obtain ⟨_, secondAbsent, otherDistinct, othersDistinct⟩ := secondDistinct
          have restShort := short_rest firstShort
          have othersShort := short_rest secondShort
          have innerShort := short_inner firstShort
          have otherShort := short_inner secondShort
          obtain ⟨heads, rests⟩ := payloads_cons firstAbsent secondAbsent payloads
          exact .nest attrType
            (innerHypothesis innerPlaces innerDistinct otherDistinct innerShort otherShort heads)
            (ih laterPlaces restDistinct othersDistinct restShort othersShort
              ((normalizeTlv_encode_eq_iff order restDistinct othersDistinct
                restShort othersShort).mpr rests))

end Encoding

end Attrs

end Nlink.Nftables
