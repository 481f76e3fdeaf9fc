import Nlink.NftablesTlv

namespace Nlink.Nftables

open Foundation Netlink List

/-!
# The canonical form of an attribute stream

Attributes may come in any order and with any hint bits.  One stream is
rearranged into another by toggling the hint bits of an attribute, by permuting
siblings so that those of one type keep their order, and by doing either within
a payload.  The normal form of a stream is the same for all of these, is a
stream in normal form itself, and lists the payloads of a type in their order.
-/

/-- A byte string is a well-formed attribute stream: attributes one after the
other, each with its padding. -/
def WellFormed (order : ByteOrder) (bytes : List UInt8) : Prop :=
  ∃ attrs, bytes = stream order attrs

/-- An attribute with other hint bits, and else the same. -/
structure Toggled (first second : RawAttr) : Prop where
  kind : first.kind = second.kind
  payload : first.payload = second.payload
  pad : first.pad = second.pad

/-- The bytes of a stream, rearranged.  The type of an attribute is its kind,
without the hint bits. -/
inductive Rearranged (order : ByteOrder) : List UInt8 → List UInt8 → Prop
  | refl (bytes : List UInt8) : Rearranged order bytes bytes
  | trans {first second third : List UInt8}
      (earlier : Rearranged order first second)
      (later : Rearranged order second third) : Rearranged order first third
  | toggle (before after : List RawAttr) {attr other : RawAttr} (toggled : Toggled attr other) :
      Rearranged order (stream order (before ++ attr :: after))
        (stream order (before ++ other :: after))
  | permute {attrs others : List RawAttr} (permuted : attrs.Perm others)
      (sameOrder : ∀ kind, withKey RawAttr.kind kind attrs = withKey RawAttr.kind kind others) :
      Rearranged order (stream order attrs) (stream order others)
  | within (before after : List RawAttr) {attr other : RawAttr}
      (sameType : attr.attrType = other.attrType)
      (nested : Rearranged order attr.payload other.payload) :
      Rearranged order (stream order (before ++ attr :: after))
        (stream order (before ++ other :: after))

section

variable {order : ByteOrder}

theorem payloadsOf_append (kind : Nat) (first second : List RawAttr) :
    payloadsOf kind (first ++ second) = payloadsOf kind first ++ payloadsOf kind second := by
  simp only [payloadsOf, withKey, filter_append, map_append]

/-- Replacing an attribute by one of its kind whose payload has the same normal
form does not change the normal form of a stream. -/
theorem normalizeTlv_replace (before after : List RawAttr) {attr other : RawAttr}
    (sameKind : attr.kind = other.kind)
    (samePayload : normalizeTlv order attr.payload = normalizeTlv order other.payload) :
    normalizeTlv order (stream order (before ++ attr :: after)) =
      normalizeTlv order (stream order (before ++ other :: after)) := by
  refine (normalizeTlv_stream_eq_iff order).mpr fun kind => ?_
  rw [payloadsOf_append, payloadsOf_append, payloadsOf_cons, payloadsOf_cons, ← sameKind]
  split
  · simp only [map_append, map_cons, samePayload]
  · rfl

theorem Rearranged.normalizeTlv_eq {first second : List UInt8}
    (rearranged : Rearranged order first second) :
    normalizeTlv order first = normalizeTlv order second := by
  induction rearranged with
  | refl bytes => rfl
  | trans _ _ earlier later => exact earlier.trans later
  | toggle before after toggled =>
      exact normalizeTlv_replace before after toggled.kind (by rw [toggled.payload])
  | permute _ sameOrder =>
      refine (normalizeTlv_stream_eq_iff order).mpr fun kind => ?_
      rw [payloadsOf, payloadsOf, sameOrder kind]
  | within before after sameType _ payloads =>
      refine normalizeTlv_replace before after ?_ payloads
      rw [RawAttr.kind, RawAttr.kind, sameType]

end

section Canonical

variable (order : ByteOrder)

/-- The attributes of a normal form, sorted by type. -/
def normalAttrs (attrs : List RawAttr) : List RawAttr :=
  sortByKey RawAttr.attrType (attrs.map (RawAttr.normal order))

/-- Without its hint bits, a type is its own kind. -/
theorem kind_normal (attr : RawAttr) : (attr.normal order).kind = attr.kind :=
  Nat.mod_mod _ _

theorem payloadsOf_normalAttrs (kind : Nat) (attrs : List RawAttr) :
    payloadsOf kind (normalAttrs order attrs) =
      (payloadsOf kind attrs).map (normalizeTlv order) := by
  have bare : ∀ attr ∈ normalAttrs order attrs, attr.kind = attr.attrType := by
    intro attr member
    obtain ⟨original, _, rfl⟩ := mem_map.mp (mem_sortByKey.mp member)
    exact kind_normal order original
  have byType : withKey RawAttr.kind kind (normalAttrs order attrs) =
      withKey RawAttr.attrType kind (normalAttrs order attrs) :=
    filter_congr fun attr member => by rw [bare attr member]
  have unsorted : withKey RawAttr.attrType kind (attrs.map (RawAttr.normal order)) =
      (withKey RawAttr.kind kind attrs).map (RawAttr.normal order) :=
    withKey_map (RawAttr.normal order) kind attrs
  rw [payloadsOf, byType, normalAttrs, withKey_sortByKey, unsorted, payloadsOf, map_map, map_map]
  rfl

/-- A normal form is its own normal form. -/
theorem normalizeTlv_idempotent (bytes : List UInt8) :
    normalizeTlv order (normalizeTlv order bytes) = normalizeTlv order bytes := by
  induction size : bytes.length using Nat.strong_induction_on generalizing bytes with
  | h length ih =>
      rcases stream_or_normal order bytes with ⟨attrs, rfl⟩ | normal
      · rw [normalizeTlv_stream_eq order attrs]
        conv_rhs => rw [← normalizeTlv_stream_eq order attrs]
        refine (normalizeTlv_stream_eq_iff order).mpr fun kind => ?_
        -- By type, the payloads of the sorted stream are normal already.
        rw [← normalAttrs, payloadsOf_normalAttrs, map_map]
        refine map_congr_left fun payload member => ?_
        obtain ⟨attr, ofKind, rfl⟩ := mem_map.mp member
        have shorter : attr.payload.length < length := by
          rw [← size]
          exact payload_length_lt (mem_withKey.mp ofKind).1
        exact ih _ shorter attr.payload rfl
      · rw [normal, normal]

/-- A normal form lists the attributes by type, and those of a type in the order
in which they were, each with the normal form of its payload. -/
structure ListsInOrder (attrs listed : List RawAttr) : Prop where
  byType : listed.Pairwise fun earlier later => earlier.attrType ≤ later.attrType
  bare : ∀ attr ∈ listed, attr.attrType = attr.kind
  inOrder : ∀ kind, payloadsOf kind listed = (payloadsOf kind attrs).map (normalizeTlv order)

theorem listsInOrder_normalAttrs (attrs : List RawAttr) :
    ListsInOrder order attrs (normalAttrs order attrs) where
  byType := sortByKey_pairwise _
  bare := by
    intro attr member
    obtain ⟨original, _, rfl⟩ := mem_map.mp (mem_sortByKey.mp member)
    exact (kind_normal order original).symm
  inOrder := fun kind => payloadsOf_normalAttrs order kind attrs

/-- The normal form of a byte string has its length and is its own normal form; a
byte string that is no stream is unchanged; and a stream has the normal form of
every rearrangement, which keeps attributes of one type in order. -/
theorem normalizeTlv_canonical :
    (∀ bytes, normalizeTlv order (normalizeTlv order bytes) = normalizeTlv order bytes) ∧
    (∀ bytes, (normalizeTlv order bytes).length = bytes.length) ∧
    (∀ bytes, ¬ WellFormed order bytes → normalizeTlv order bytes = bytes) ∧
    (∀ first second, WellFormed order first → Rearranged order first second →
      normalizeTlv order first = normalizeTlv order second) ∧
    ∀ attrs, ∃ listed, normalizeTlv order (stream order attrs) = stream order listed ∧
      ListsInOrder order attrs listed := by
  refine ⟨normalizeTlv_idempotent order, normalizeTlv_length order, ?_, ?_, ?_⟩
  · intro bytes malformed
    exact (stream_or_normal order bytes).resolve_left malformed
  · intro first second _ rearranged
    exact rearranged.normalizeTlv_eq
  · intro attrs
    exact ⟨normalAttrs order attrs, normalizeTlv_stream_eq order attrs,
      listsInOrder_normalAttrs order attrs⟩

end Canonical

/-- An attribute without payload. -/
def bareAttr (attrType : Nat) (typeFits : attrType < 256 ^ 2) : RawAttr where
  attrType := attrType
  payload := []
  pad := []
  typeFits := typeFits
  lengthFits := by decide
  padded := rfl

/-- The key of an expression written after its register, which the kernel lists
the other way round, and a byte that is no stream. -/
theorem normalizeTlv_canonical_swapped :
    normalizeTlv .little (stream .little [bareAttr 2 (by decide), bareAttr 1 (by decide)]) =
        normalizeTlv .little (stream .little [bareAttr 1 (by decide), bareAttr 2 (by decide)]) ∧
      normalizeTlv .little [7] = [7] := by
  have canonical := normalizeTlv_canonical .little
  refine ⟨canonical.2.2.2.1 _ _ ⟨_, rfl⟩ (.permute (.swap _ _ []) fun kind => ?_),
    canonical.2.2.1 [7] ?_⟩
  · by_cases one : kind = 1
    · subst one
      rfl
    · simp [withKey, filter_cons, RawAttr.kind, bareAttr, NLA_F_NET_BYTEORDER, Ne.symm one]
  · rintro ⟨attrs, isStream⟩
    cases attrs with
    | nil => cases isStream
    | cons attr rest =>
        have length := congrArg List.length isStream
        have aligned := le_nlaAlign (attr.payload.length + 4)
        rw [stream_cons, length_append, RawAttr.bytes_length] at length
        simp only [length_singleton] at length
        omega

end Nlink.Nftables
