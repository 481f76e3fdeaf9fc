import Nlink.NetlinkRoute

namespace Nlink.Netlink

open Foundation Nftables List Attrs

/-!
# Attributes that are cut off

The length of an attribute is written in two bytes and saturates there.  The
iterator then takes the payload to end early, and goes on with bytes that were
written as payload.  What it yields is still bounded by the length field and by
the bytes that there are.
-/

variable (order : ByteOrder)

theorem nextAttr_header {len attrType : Nat} (bytes : List UInt8) (lengthFits : len < 256 ^ 2)
    (typeFits : attrType < 256 ^ 2) :
    nextAttr order (order.toBytes 2 len ++ (order.toBytes 2 attrType ++ bytes)) =
      if len < NLA_HDRLEN ∨ NLA_HDRLEN + bytes.length < len then
        none
      else
        some
          ((attrType % NLA_F_NET_BYTEORDER, bytes.take (len - NLA_HDRLEN)),
            bytes.drop (nlaAlign len - NLA_HDRLEN)) := by
  have header := fromBytes_header order bytes lengthFits typeFits
  have isHeader : (order.toBytes 2 len ++ order.toBytes 2 attrType).length =
        NLA_HDRLEN := by
    rw [length_append, ByteOrder.toBytes_length, ByteOrder.toBytes_length]
    rfl
  have behind (size : Nat) (long : NLA_HDRLEN ≤ size) :
      (order.toBytes 2 len ++ (order.toBytes 2 attrType ++ bytes)).drop size =
        bytes.drop (size - NLA_HDRLEN) := by
    rw [← List.append_assoc, drop_append, isHeader, drop_of_length_le (by omega), List.nil_append]
  have whole : (order.toBytes 2 len ++ (order.toBytes 2 attrType ++ bytes)).length =
        NLA_HDRLEN + bytes.length := by
    rw [← List.append_assoc, length_append, isHeader]
  rw [nextAttr, header]
  change (if _ then none else _) = _
  rw [whole]
  split
  · rfl
  · rename_i lengths
    obtain ⟨longEnough, inside⟩ := not_or.mp lengths
    have aligned : NLA_HDRLEN ≤ nlaAlign len :=
      Nat.le_trans (Nat.le_of_not_lt longEnough) (le_nlaAlign len)
    rw [drop_take, behind NLA_HDRLEN (Nat.le_refl _), behind _ aligned, Nat.sub_self, drop_zero]
    rfl

variable {attr : Attribute}

variable {data rest : List UInt8}

theorem nextAttr_payload_le
    (next : nextAttr order data = some (attr, rest)) :
    NLA_HDRLEN + attr.2.length ≤ 65535 ∧ NLA_HDRLEN + attr.2.length ≤ data.length := by
  obtain ⟨found, header, longEnough, inside, rfl, _⟩ := nextAttr_eq_some next
  have lengthFits : found.nlaLen < 256 ^ 2 := by
    match data, header with
    | l0 :: l1 :: t0 :: t1 :: _, header =>
        cases header
        exact order.ofBytes_lt [l0, l1]
  rw [NLA_HDRLEN] at longEnough ⊢
  rw [length_drop, length_take]
  omega

/-- What is left behind an attribute and its padding. -/
theorem nextAttr_rest (next : nextAttr order data = some (attr, rest)) :
    rest = data.drop (nlaAlign (NLA_HDRLEN + attr.2.length)) := by
  obtain ⟨found, _, longEnough, inside, rfl, rfl⟩ := nextAttr_eq_some next
  have isLength : NLA_HDRLEN + ((data.take found.nlaLen).drop NLA_HDRLEN).length =
      found.nlaLen := by
    rw [length_drop, length_take]
    omega
  rw [isLength]

/-- No payload is longer than its length field or the data. -/
theorem attrIter_payload_le {data : List UInt8} (member : attr ∈ attrIter order data) :
    NLA_HDRLEN + attr.2.length ≤ 65535 ∧ NLA_HDRLEN + attr.2.length ≤ data.length := by
  induction length : data.length using Nat.strong_induction_on
    generalizing data with
  | _ length ih =>
      cases next : nextAttr order data with
      | none =>
          rw [attrIter_of_none next] at member
          cases member
      | some step =>
          obtain ⟨first, rest⟩ := step
          rw [attrIter_of_next next, mem_cons] at member
          have shrinks := nextAttr_shrinks next
          obtain rfl | later := member
          · rw [← length]
            exact nextAttr_payload_le order next
          · obtain ⟨fits, inside⟩ := ih _ (by omega) later rfl
            exact ⟨fits, by omega⟩

theorem nextAttr_of_short {data : List UInt8} (short : data.length < NLA_HDRLEN) :
    nextAttr order data = none := by
  rw [nextAttr]
  rcases data with _ | ⟨_, _ | ⟨_, _ | ⟨_, _ | ⟨_, data⟩⟩⟩⟩
  · rfl
  · rfl
  · rfl
  · rfl
  · exact absurd short (by simp [NLA_HDRLEN])

/-- The next attribute, by the two numbers of its header. -/
theorem nextAttr_of_long {data : List UInt8} (long : ¬ data.length < NLA_HDRLEN) :
    nextAttr order data =
      let len := order.ofBytes (data.take 2)
      if len < NLA_HDRLEN ∨ data.length < len then
        none
      else
        some ((order.ofBytes ((data.drop 2).take 2) % NLA_F_NET_BYTEORDER,
          (data.take len).drop NLA_HDRLEN), data.drop (nlaAlign len)) := by
  rw [nextAttr]
  rcases data with _ | ⟨_, _ | ⟨_, _ | ⟨_, _ | ⟨_, data⟩⟩⟩⟩
  · exact absurd (Nat.lt_of_sub_eq_succ rfl) long
  · exact absurd (Nat.lt_of_sub_eq_succ rfl) long
  · exact absurd (Nat.lt_of_sub_eq_succ rfl) long
  · exact absurd (Nat.lt_of_sub_eq_succ rfl) long
  · rfl

theorem fromBytes_take (data : List UInt8) {size : Nat} (header : NLA_HDRLEN ≤ size) :
    NlAttr.fromBytes order (data.take size) = NlAttr.fromBytes order data := by
  obtain ⟨left, rfl⟩ := Nat.exists_eq_add_of_le' header
  match data with
  | [] => rfl
  | [_] => rfl
  | [_, _] => rfl
  | [_, _, _] => rfl
  | _ :: _ :: _ :: _ :: _ => rfl

/-- The first attribute of bytes that are cut off is found if the cut is behind
it. -/
theorem nextAttr_take (next : nextAttr order data = some (attr, rest)) (size : Nat) :
    nextAttr order (data.take size) =
      if NLA_HDRLEN + attr.2.length ≤ size then
        some (attr, rest.take (size - nlaAlign (NLA_HDRLEN + attr.2.length)))
      else
        none := by
  by_cases header : NLA_HDRLEN ≤ size
  · rw [nextAttr] at next ⊢
    rw [fromBytes_take order data header]
    cases isHeader : NlAttr.fromBytes order data with
    | none =>
        rw [isHeader] at next
        cases next
    | some found =>
        rw [isHeader] at next
        change (if _ then none else _) = _ at next
        change (if _ then none else _) = _
        split at next
        · cases next
        · rename_i lengths
          obtain ⟨longEnough, inside⟩ := not_or.mp lengths
          cases next
          have isLength : NLA_HDRLEN + ((data.take found.nlaLen).drop NLA_HDRLEN).length =
                found.nlaLen := by
            rw [length_drop, length_take]
            omega
          rw [isLength, length_take]
          by_cases cut : found.nlaLen ≤ size
          · have stillInside :
                ¬ (found.nlaLen < NLA_HDRLEN ∨ min size data.length < found.nlaLen) := by
              omega
            rw [if_neg stillInside, if_pos cut, take_take, Nat.min_eq_left cut]
            exact congrArg some (Prod.ext rfl drop_take)
          · have outside : found.nlaLen < NLA_HDRLEN ∨ min size data.length < found.nlaLen := by
              omega
            rw [if_pos outside, if_neg cut]
  · have outside : ¬ NLA_HDRLEN + attr.2.length ≤ size := by omega
    rw [if_neg outside]
    refine nextAttr_of_short order ?_
    rw [length_take]
    omega

theorem attrIter_take {attrs : List Attribute} (fit : ∀ attr ∈ attrs, attr.Fits) (size : Nat) :
    attrIter order ((encodeAll order attrs).take size) <+: attrs.map Attribute.masked := by
  induction attrs generalizing size with
  | nil =>
      rw [encodeAll, flatMap_nil, take_nil]
      exact nil_prefix
  | cons attr rest ih =>
      obtain ⟨⟨typeFits, lengthFits⟩, restFit⟩ := forall_mem_cons.mp fit
      have next := nextAttr_take order
        (nextAttr_attrBytes order (encodeAll order rest) typeFits lengthFits) size
      rw [encodeAll, flatMap_cons, ← encodeAll]
      by_cases inside : NLA_HDRLEN + attr.2.length ≤ size
      · rw [if_pos inside] at next
        rw [attrIter_of_next next, map_cons, cons_prefix_cons]
        exact ⟨rfl, ih restFit _⟩
      · rw [if_neg inside] at next
        rw [attrIter_of_none next]
        exact nil_prefix

/-- The attributes of bytes that are cut off are the first of them, as many as are
whole. -/
theorem attrIter_take_whole {attrs : List Attribute} (fit : ∀ attr ∈ attrs, attr.Fits)
    (aligned : ∀ attr ∈ attrs, 4 ∣ attr.2.length) (size : Nat) :
    ∃ count, attrIter order ((encodeAll order attrs).take size) =
        (attrs.take count).map Attribute.masked ∧
      (encodeAll order (attrs.take count)).length ≤ size := by
  induction attrs generalizing size with
  | nil =>
      refine ⟨0, ?_, Nat.zero_le _⟩
      rw [encodeAll, flatMap_nil, take_nil]
      rfl
  | cons attr rest ih =>
      obtain ⟨⟨typeFits, lengthFits⟩, restFit⟩ := forall_mem_cons.mp fit
      obtain ⟨attrAligned, restAligned⟩ := forall_mem_cons.mp aligned
      have next := nextAttr_take order
        (nextAttr_attrBytes order (encodeAll order rest) typeFits lengthFits) size
      have isAligned : nlaAlign (NLA_HDRLEN + attr.2.length) = NLA_HDRLEN + attr.2.length :=
        nlaAlign_of_dvd (Nat.dvd_add (Nat.dvd_refl 4) attrAligned)
      rw [encodeAll, flatMap_cons, ← encodeAll]
      by_cases inside : NLA_HDRLEN + attr.2.length ≤ size
      · obtain ⟨count, isTaken, short⟩ :=
          ih restFit restAligned (size - (NLA_HDRLEN + attr.2.length))
        rw [if_pos inside, isAligned] at next
        refine ⟨count + 1, ?_, ?_⟩
        · rw [attrIter_of_next next, isTaken, take_succ_cons, map_cons]
          rfl
        · rw [encodeAll] at short
          rw [take_succ_cons, encodeAll, flatMap_cons, length_append,
            attrBytes_length, Nat.add_comm _ 4, ← NLA_HDRLEN, isAligned]
          omega
      · rw [if_neg inside] at next
        exact ⟨0, attrIter_of_none next, Nat.zero_le _⟩

/-- An attribute is not found if it is cut off behind its header. -/
theorem nextAttr_cut {attrType size : Nat} {payload : List UInt8} (typeFits : attrType < 256 ^ 2)
    (header : NLA_HDRLEN ≤ size) (cut : size < min (NLA_HDRLEN + payload.length) 65535) :
    nextAttr order ((attrBytes order attrType payload).take size) = none := by
  rw [NLA_HDRLEN] at header cut
  have lengthFits : min (4 + payload.length) 65535 < 256 ^ 2 := by omega
  have isCut : (attrBytes order attrType payload).take size =
      order.toBytes 2 (min (4 + payload.length) 65535) ++
        (order.toBytes 2 attrType ++ payload.take (size - 2 - 2)) := by
    rw [attrBytes, take_append, take_append, ByteOrder.toBytes_length,
      ByteOrder.toBytes_length, take_of_length_le (by rw [ByteOrder.toBytes_length]; omega),
      take_of_length_le (by rw [ByteOrder.toBytes_length]; omega),
      take_append_of_le_length (by omega)]
  rw [isCut, nextAttr_header order _ lengthFits typeFits, if_pos]
  right
  rw [length_take, NLA_HDRLEN]
  omega

/-- An attribute that is too long is cut, and read on inside its payload. -/
theorem nextAttr_long {attrType : Nat} {payload : List UInt8} (typeFits : attrType < 256 ^ 2)
    (aligned : 4 ∣ payload.length) (long : 65535 < NLA_HDRLEN + payload.length) :
    nextAttr order (attrBytes order attrType payload) = some
        ((attrType % NLA_F_NET_BYTEORDER, payload.take 65531), payload.drop 65532) := by
  have unpadded : padding (4 + payload.length) = [] :=
    padding_of_dvd (Nat.dvd_add (Nat.dvd_refl 4) aligned)
  have saturates : min (4 + payload.length) 65535 = 65535 := by
    rw [NLA_HDRLEN] at long
    omega
  have inside : ¬ (65535 < NLA_HDRLEN ∨ NLA_HDRLEN + payload.length < 65535) := by
    rw [NLA_HDRLEN] at long ⊢
    omega
  rw [attrBytes, saturates, unpadded, List.append_nil,
    nextAttr_header order payload (by decide) typeFits, if_neg inside]
  rfl

end Nlink.Netlink
