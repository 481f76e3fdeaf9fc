import Mathlib.Algebra.Order.BigOperators.Group.List
import Nlink.EthtoolBitset

namespace Nlink.Ethtool

open Foundation Netlink List Writer
open Nftables Attrs

/-!
# Written bitsets

A bitset is written as a list of its names and read back with new indices.  The
names keep their values, if the list fits its nests and the terminator can be
told from each name.
-/

namespace EthtoolBitset

/-!
## Entries without indices
-/

/-- The indices in use are the first ones. -/
def Dense (bitset : EthtoolBitset) : Prop :=
  ∀ idx : BitVec 32, idx.toNat < bitset.names.entries.length ∨ bitset.names.lookup idx = none

/-- A list entry as `write_to` writes it. -/
def namedEntry (pair : String × Bool) : BitEntry where
  index := none
  name := some pair.1
  value := pair.2

/-- What a bitset has after names with values were recorded, and nothing else. -/
structure Holds (bitset : EthtoolBitset) (pairs : List (String × Bool)) : Prop where
  count : bitset.names.entries.length = pairs.length
  bijective : bitset.Bijective
  dense : bitset.Dense
  values : ∀ name value, bitset.valueOf name = some value ↔ (name, value) ∈ pairs

theorem holds_new : new.Holds [] where
  count := rfl
  bijective := Inverse.empty
  dense := fun _ => .inr rfl
  values := fun _ _ => iff_of_false nofun not_mem_nil

theorem Holds.recordBit {bitset : EthtoolBitset} {pairs : List (String × Bool)}
    (holds : bitset.Holds pairs) {pair : String × Bool} (fresh : pair.1 ∉ pairs.map Prod.fst)
    (room : pairs.length < 2 ^ 32) :
    (bitset.recordBit (namedEntry pair)).Holds (pairs ++ [pair]) := by
  have named : Named bitset bitset.nextIndex pair.1 pair.2 (bitset.recordBit (namedEntry pair)) :=
    ⟨rfl, rfl, rfl⟩
  have next : bitset.nextIndex.toNat = bitset.names.entries.length := by
    rw [nextIndex, BitVec.toNat_ofNat, holds.count, Nat.mod_eq_of_lt room]
  have unused : bitset.names.lookup bitset.nextIndex = none := by
    rcases holds.dense bitset.nextIndex with used | unused
    · exact absurd used (by omega)
    · exact unused
  have freshName : bitset.nameToIndex.lookup pair.1 = none := by
    rw [Option.eq_none_iff_forall_ne_some]
    intro idx held
    have value : bitset.valueOf pair.1 = some ((bitset.values.lookup idx).getD false) := by
      rw [valueOf, held, Option.map_some]
    exact fresh (mem_map.mpr ⟨_, (holds.values _ _).mp value, rfl⟩)
  have count : (bitset.recordBit (namedEntry pair)).names.entries.length =
      bitset.names.entries.length + 1 := by
    rw [named.names, AList.entries_insert_of_notMem (AList.lookup_eq_none.mp unused)]
    rfl
  refine ⟨?_, (named.bijective_iff holds.bijective freshName).mpr unused, ?_, ?_⟩
  · rw [count, holds.count, length_append, length_singleton]
  · intro idx
    rw [count]
    by_cases isNext : idx = bitset.nextIndex
    · left
      rw [isNext, next]
      exact Nat.lt_succ_self _
    · rw [named.names, AList.lookup_insert_ne isNext]
      exact (holds.dense idx).imp_left Nat.lt_succ_of_lt
  · intro name value
    rw [named.updates holds.bijective unused name, mem_append, mem_singleton]
    by_cases own : name = pair.1
    · have elsewhere : (name, value) ∉ pairs := fun member => fresh (own ▸ mem_map_of_mem member)
      rw [if_pos own, or_iff_right elsewhere, own, Option.some.injEq]
      exact ⟨fun same => Prod.ext rfl same.symm, fun same => (congrArg Prod.snd same).symm⟩
    · rw [if_neg own, holds.values, or_iff_left fun same => own (congrArg Prod.fst same)]

theorem holds_named {pairs : List (String × Bool)} (distinct : (pairs.map Prod.fst).Nodup)
    (room : pairs.length ≤ 2 ^ 32) : ((pairs.map namedEntry).foldl recordBit new).Holds pairs := by
  induction pairs using List.reverseRecOn with
  | nil => exact holds_new
  | append_singleton pairs pair ih =>
      rw [map_append, nodup_append] at distinct
      rw [length_append, length_singleton] at room
      obtain ⟨startDistinct, -, disjoint⟩ := distinct
      rw [map_append, foldl_append]
      refine (ih startDistinct (by omega)).recordBit ?_ (by omega)
      intro member
      exact disjoint _ member _ (mem_singleton_self _) rfl

/-!
## The bytes
-/

def entrySize (bitset : EthtoolBitset) (entry : BitVec 32 × String) : Nat :=
  NLA_HDRLEN + (nlaAlign (NLA_HDRLEN + (entry.2.utf8ByteSize + 1)) +
    if (bitset.values.lookup entry.1).getD false then NLA_HDRLEN else 0)

theorem entrySize_pos (bitset : EthtoolBitset) (entry : BitVec 32 × String) :
    1 ≤ bitset.entrySize entry := by
  rw [entrySize, NLA_HDRLEN]
  omega

/-- The list fits its nests, and no name ends like a terminator. -/
structure Writable (bitset : EthtoolBitset) : Prop where
  short : (bitset.names.pairs.map bitset.entrySize).sum ≤ 65527
  plain : ∀ entry ∈ bitset.names.pairs, trimEndNul entry.2 = entry.2

variable (order : ByteOrder) (bitset : EthtoolBitset)

/-- The attributes inside a list entry. -/
def entryBody (entry : BitVec 32 × String) : Writer order :=
  .all
    [.str BitsetBitAttr.NAME entry.2,
      .when ((bitset.values.lookup entry.1).getD false) (.attr BitsetBitAttr.VALUE [])]

/-- The list of `write_to`. -/
def bits : Writer order :=
  .all (bitset.entries.zipIdx.map (bitset.writeEntry order))

theorem entries_perm : bitset.entries.Perm bitset.names.pairs :=
  mergeSort_perm ..

theorem length_attrBytes_of_dvd {attrType : Nat} {payload : List UInt8}
    (aligned : 4 ∣ payload.length) :
    (attrBytes order attrType payload).length = NLA_HDRLEN + payload.length := by
  rw [attrBytes_length, nlaAlign, NLA_HDRLEN]
  omega

theorem length_entryBody (entry : BitVec 32 × String) :
    (encodeAll order (bitset.entryBody order entry).attrs).length + NLA_HDRLEN =
      bitset.entrySize entry := by
  rw [entryBody, attrs_all, entrySize]
  cases (bitset.values.lookup entry.1).getD false
  · change (attrBytes order _ _ ++ []).length + NLA_HDRLEN = _
    rw [List.append_nil, attrBytes_length, length_append, Nftables.asBytes_length,
      length_singleton, if_neg (by decide), Nat.add_comm, Nat.add_comm _ 4]
    rfl
  · change (attrBytes order _ _ ++ (attrBytes order _ [] ++ [])).length +
      NLA_HDRLEN = _
    rw [List.append_nil, length_append, attrBytes_length, attrBytes_length,
      length_append, Nftables.asBytes_length, length_singleton, if_pos rfl, Nat.add_comm,
      Nat.add_comm _ 4]
    rfl

theorem length_writeEntry (entry : BitVec 32 × String) (i : Nat) :
    (encodeAll order (bitset.writeEntry order (entry, i)).attrs).length =
      bitset.entrySize entry := by
  rw [← bitset.length_entryBody order, writeEntry]
  change (attrBytes order _ (encodeAll order (bitset.entryBody order entry).attrs) ++
    []).length = _
  rw [List.append_nil, length_attrBytes_of_dvd order (bitset.entryBody order entry).appends.aligned,
    Nat.add_comm]

theorem length_bits : (encodeAll order (bitset.bits order).attrs).length =
      (bitset.names.pairs.map bitset.entrySize).sum := by
  rw [← (bitset.entries_perm.map bitset.entrySize).sum_nat, bits, attrs_all, encodeAll,
    flatMap_map, flatMap_assoc, length_flatMap,
    ← congrArg (List.map bitset.entrySize) (zipIdx_map_fst 0 bitset.entries), map_map]
  refine congrArg List.sum (map_congr_left ?_)
  rintro ⟨entry, i⟩ _
  exact bitset.length_writeEntry order entry i

/-!
## Reading back
-/

section Read

variable {order bitset}

variable {entry : BitVec 32 × String}

theorem small_entryBody (short : bitset.entrySize entry ≤ 65527) :
    (bitset.entryBody order entry).Small 65523 := by
  have length := bitset.length_entryBody order entry
  refine ⟨by rw [NLA_HDRLEN] at length; omega, ?_⟩
  intro attr member
  refine ⟨?_, ?_⟩
  · rw [entryBody, attrs_all] at member
    cases isSet : (bitset.values.lookup entry.1).getD false
    · rw [isSet] at member
      cases mem_singleton.mp member
      change BitsetBitAttr.NAME < 256 ^ 2
      decide
    · rw [isSet] at member
      rcases mem_cons.mp member with rfl | rest
      · change BitsetBitAttr.NAME < 256 ^ 2
        decide
      · cases mem_singleton.mp rest
        decide
  · have inside := length_le_encodeAll order member
    rw [NLA_HDRLEN] at length
    omega

theorem bitEntry_entryBody
    (short : bitset.entrySize entry ≤ 65527) :
    bitEntry order (encodeAll order (bitset.entryBody order entry).attrs) =
      namedEntry (trimEndNul entry.2, (bitset.values.lookup entry.1).getD false) := by
  rw [bitEntry, attrIter_payload (small_entryBody short), entryBody]
  cases (bitset.values.lookup entry.1).getD false
  · change entryAttr order _ (BitsetBitAttr.NAME, asBytes entry.2 ++ [0]) = _
    change ({ index := none, name := some _, value := false } : BitEntry) = _
    rw [trimEndNul_terminated]
    rfl
  · change ({ index := none, name := some _, value := true } : BitEntry) = _
    rw [trimEndNul_terminated]
    rfl

/-- The type of a list entry, with the flags that are set twice. -/
def entryType (i : Nat) : Nat :=
  (BitVec.ofNat 16 i + 1).toNat ||| NLA_F_NESTED ||| NLA_F_NESTED

theorem entryType_lt (i : Nat) : entryType i < 256 ^ 2 :=
  Nat.or_lt_two_pow (n := 16) (Nat.or_lt_two_pow (BitVec.isLt _) (by decide)) (by decide)

theorem attrs_bits : (bitset.bits order).attrs = bitset.entries.zipIdx.map fun entry =>
      (entryType entry.2, encodeAll order (bitset.entryBody order entry.1).attrs) := by
  rw [bits, attrs_all, flatMap_map, map_eq_flatMap]
  rfl

theorem entrySize_le (member : entry ∈ bitset.entries) :
    bitset.entrySize entry ≤ (bitset.names.pairs.map bitset.entrySize).sum :=
  single_le_sum (fun _ _ => Nat.zero_le _) _
    (mem_map_of_mem (bitset.entries_perm.mem_iff.mp member))

/-- The names with their values, as they are read back. -/
def readPairs (bitset : EthtoolBitset) : List (String × Bool) :=
  bitset.entries.map fun entry => (trimEndNul entry.2, (bitset.values.lookup entry.1).getD false)

theorem parseBits_written (short : (bitset.names.pairs.map bitset.entrySize).sum ≤ 65527) :
    new.parseBits order (encodeAll order (bitset.bits order).attrs) =
      (bitset.readPairs.map namedEntry).foldl recordBit new := by
  have fit : ∀ attr ∈ (bitset.bits order).attrs, attr.Fits := by
    intro attr member
    have inside := length_le_encodeAll order member
    rw [length_bits] at inside
    refine ⟨?_, by omega⟩
    rw [attrs_bits] at member
    obtain ⟨entry, -, rfl⟩ := mem_map.mp member
    exact entryType_lt _
  have read : ((bitset.bits order).attrs.map Attribute.masked).map
      (fun bit => bitEntry order bit.2) = bitset.readPairs.map namedEntry := by
    rw [attrs_bits, map_map, map_map, readPairs, map_map]
    conv_rhs => rw [← zipIdx_map_fst 0 bitset.entries, map_map]
    apply map_congr_left
    intro entry member
    have isEntry : entry.1 ∈ bitset.entries := by
      have image := mem_map_of_mem (f := Prod.fst) member
      rwa [zipIdx_map_fst] at image
    exact bitEntry_entryBody ((entrySize_le isEntry).trans short)
  rw [parseBits_eq, attrIter_encodeAll order fit, read]

/-- The attributes that an outer nest holds. -/
def outerBody (order : ByteOrder) (bitset : EthtoolBitset) : List UInt8 :=
  encodeAll order (nest (BitsetAttr.BITS ||| NLA_F_NESTED) (bitset.bits order)).attrs

theorem outerBody_eq : bitset.outerBody order =
      attrBytes order (BitsetAttr.BITS ||| NLA_F_NESTED ||| NLA_F_NESTED)
        (encodeAll order (bitset.bits order).attrs) :=
  List.append_nil _

theorem length_outerBody : (bitset.outerBody order).length =
      NLA_HDRLEN + (bitset.names.pairs.map bitset.entrySize).sum := by
  rw [outerBody_eq, length_attrBytes_of_dvd order (bitset.bits order).appends.aligned, length_bits]

theorem parse_of_bits {data payload : List UInt8}
    (only : attrIter order data = [(BitsetAttr.BITS, payload)]) :
    parse order data = new.parseBits order payload := by
  rw [parse, only]
  rfl

theorem parse_outerBody (short : (bitset.names.pairs.map bitset.entrySize).sum ≤ 65527) :
    parse order (bitset.outerBody order) =
      (bitset.readPairs.map namedEntry).foldl recordBit new := by
  have fit : ∀ attr ∈ (nest (BitsetAttr.BITS ||| NLA_F_NESTED) (bitset.bits order)).attrs,
      attr.Fits := by
    intro attr member
    cases mem_singleton.mp member
    have plain : BitsetAttr.BITS ||| NLA_F_NESTED ||| NLA_F_NESTED < 256 ^ 2 := by decide
    refine ⟨plain, ?_⟩
    change NLA_HDRLEN + (encodeAll order (bitset.bits order).attrs).length ≤ _
    rw [length_bits, NLA_HDRLEN]
    omega
  have kind : (BitsetAttr.BITS ||| NLA_F_NESTED ||| NLA_F_NESTED) % NLA_F_NET_BYTEORDER =
      BitsetAttr.BITS := by
    decide
  have only : attrIter order (bitset.outerBody order) =
      [(BitsetAttr.BITS, encodeAll order (bitset.bits order).attrs)] := by
    rw [outerBody, attrIter_encodeAll order fit]
    exact congrArg (fun found => [(found, _)]) kind
  rw [parse_of_bits only, parseBits_written short]

/-- A list that does not fit is cut, and then not even its first attribute is
found. -/
theorem parse_cut (long : 65527 < (bitset.names.pairs.map bitset.entrySize).sum) :
    parse order ((bitset.outerBody order).take 65531) = new := by
  have none : nextAttr order ((bitset.outerBody order).take 65531) = none := by
    rw [outerBody_eq]
    refine nextAttr_cut order (by decide) (by decide) ?_
    rw [length_bits, NLA_HDRLEN]
    omega
  rw [parse, attrIter_of_none none]
  rfl

/-- The payload of the outer attribute, as far as its length field reaches. -/
def payload (order : ByteOrder) (bitset : EthtoolBitset) : List UInt8 :=
  (bitset.outerBody order).take 65531

theorem payload_of_short (short : (bitset.names.pairs.map bitset.entrySize).sum ≤ 65527) :
    bitset.payload order = bitset.outerBody order := by
  have length := @length_outerBody order bitset
  rw [NLA_HDRLEN] at length
  exact take_of_length_le (by omega)

theorem head_written (attrType : BitVec 16) {builder : MessageBuilder}
    (aligned : 4 ∣ builder.buf.length) :
    (attrIter order (((bitset.writeTo order attrType).write builder).buf.drop
        builder.buf.length)).head? =
      some (attrType.toNat % NLA_F_NET_BYTEORDER, bitset.payload order) := by
  have kind : (attrType.toNat ||| NLA_F_NESTED ||| NLA_F_NESTED) % NLA_F_NET_BYTEORDER =
      attrType.toNat % NLA_F_NET_BYTEORDER := by
    rw [NLA_F_NET_BYTEORDER, Nat.or_mod_two_pow (n := 14), Nat.or_mod_two_pow (n := 14)]
    exact (Nat.or_zero _).trans (Nat.or_zero _)
  have typeFits : attrType.toNat ||| NLA_F_NESTED ||| NLA_F_NESTED < 256 ^ 2 :=
    Nat.or_lt_two_pow (n := 16) (Nat.or_lt_two_pow attrType.isLt (by decide)) (by decide)
  have bytes : ((bitset.writeTo order attrType).write builder).buf.drop builder.buf.length =
      attrBytes order (attrType.toNat ||| NLA_F_NESTED ||| NLA_F_NESTED)
        (bitset.outerBody order) := by
    rw [(bitset.writeTo order attrType).appends.appended builder aligned, drop_left]
    exact List.append_nil _
  have length := @length_outerBody order bitset
  rw [bytes, ← kind]
  by_cases short : (bitset.names.pairs.map bitset.entrySize).sum ≤ 65527
  · have lengthFits : NLA_HDRLEN + (bitset.outerBody order).length ≤ 65535 := by
      rw [NLA_HDRLEN] at length ⊢
      omega
    have next := nextAttr_attrBytes order [] typeFits lengthFits
    rw [List.append_nil] at next
    rw [attrIter_of_next next, payload_of_short short]
    rfl
  · have long : 65535 < NLA_HDRLEN + (bitset.outerBody order).length := by
      rw [NLA_HDRLEN] at length ⊢
      omega
    have dvd : 4 ∣ (bitset.outerBody order).length :=
      (nest (BitsetAttr.BITS ||| NLA_F_NESTED) (bitset.bits order)).appends.aligned
    rw [attrIter_of_next (nextAttr_long order typeFits dvd long)]
    rfl

/-- A name that is read was written, perhaps with more NULs behind it. -/
theorem mem_of_lookup_named {pairs : List (String × Bool)} {name : String} {idx : BitVec 32}
    (held : ((pairs.map namedEntry).foldl recordBit new).nameToIndex.lookup name = some idx) :
    name ∈ pairs.map Prod.fst := by
  induction pairs using List.reverseRecOn with
  | nil => cases held
  | append_singleton pairs pair ih =>
      rw [map_append, foldl_append] at held
      rw [map_append]
      by_cases own : name = pair.1
      · exact mem_append_right _ (mem_singleton.mpr own)
      · have named := @named_recordBit ((pairs.map namedEntry).foldl recordBit new)
          (namedEntry pair) pair.1 rfl
        rw [map_singleton, foldl_cons, foldl_nil, named.nameToIndex,
          AList.lookup_insert_ne own] at held
        exact mem_append_left _ (ih held)

theorem valueOf_iff (bijective : bitset.Bijective) {name : String} {value : Bool} :
    bitset.valueOf name = some value ↔
      ∃ idx, (idx, name) ∈ bitset.names.pairs ∧
        (bitset.values.lookup idx).getD false = value := by
  rw [valueOf, Option.map_eq_some_iff]
  refine exists_congr fun idx => and_congr_left fun _ => ?_
  rw [HashMap.mem_pairs_iff]
  exact (bijective idx name).symm

/-- What is read back has the same values exactly if the bitset can be written. -/
theorem valueOf_payload_iff (bijective : bitset.Bijective) :
    (∀ name, (parse order (bitset.payload order)).valueOf name = bitset.valueOf name) ↔
      bitset.Writable := by
  have held : ∀ entry ∈ bitset.names.pairs,
      bitset.valueOf entry.2 = some ((bitset.values.lookup entry.1).getD false) :=
    fun entry member => (valueOf_iff bijective).mpr ⟨entry.1, member, rfl⟩
  by_cases short : (bitset.names.pairs.map bitset.entrySize).sum ≤ 65527
  · rw [payload_of_short short, parse_outerBody short]
    constructor
    · intro same
      refine ⟨short, fun entry member => ?_⟩
      have read := (same entry.2).trans (held entry member)
      rw [valueOf, Option.map_eq_some_iff] at read
      obtain ⟨idx, found, -⟩ := read
      obtain ⟨pair, isPair, isName⟩ := mem_map.mp (mem_of_lookup_named found)
      obtain ⟨written, -, rfl⟩ := mem_map.mp isPair
      rw [← isName]
      dsimp only
      rw [trimEndNul, trimEndNul, String.toList_ofList, rdropWhile_idempotent]
    · intro writable name
      have pairs : bitset.readPairs = bitset.entries.map fun entry =>
          (entry.2, (bitset.values.lookup entry.1).getD false) := by
        refine map_congr_left fun entry member => ?_
        rw [writable.plain entry (bitset.entries_perm.mem_iff.mp member)]
      have names : bitset.readPairs.map Prod.fst = bitset.entries.map Prod.snd := by
        rw [pairs, map_map]
        rfl
      have distinct : (bitset.readPairs.map Prod.fst).Nodup := by
        rw [names, (bitset.entries_perm.map Prod.snd).nodup_iff]
        exact bijective.nodup_values
      have room : bitset.readPairs.length ≤ 2 ^ 32 := by
        have count := length_le_sum_of_one_le (bitset.names.pairs.map bitset.entrySize)
          (forall_mem_map.mpr fun entry _ => bitset.entrySize_pos entry)
        rw [length_map] at count
        rw [readPairs, length_map, bitset.entries_perm.length_eq]
        omega
      refine Option.ext fun value => ?_
      rw [(holds_named distinct room).values, valueOf_iff bijective, pairs, mem_map]
      constructor
      · rintro ⟨entry, member, same⟩
        cases same
        exact ⟨entry.1, bitset.entries_perm.mem_iff.mp member, rfl⟩
      · rintro ⟨idx, member, rfl⟩
        exact ⟨(idx, name), bitset.entries_perm.mem_iff.mpr member, rfl⟩
  · have long := Nat.lt_of_not_le short
    rw [payload, parse_cut long]
    refine iff_of_false (fun same => ?_) fun writable => short writable.short
    cases isPairs : bitset.names.pairs with
    | nil =>
        rw [isPairs] at short
        exact short (Nat.zero_le _)
    | cons entry rest =>
        have read := (same entry.2).trans (held entry (by rw [isPairs]; exact mem_cons_self))
        cases read

end Read

end EthtoolBitset

/-!
## Every run
-/

open EthtoolBitset

/-- After a payload with distinct names and indices and calls that add what is
new, the maps are inverse and a name that is set has a value of its own, as long as
no new name was given an index in use.  What is written is read back unless the
list does not fit or a name ends in NUL. -/
theorem one_value_per_name {order : ByteOrder} {data : List UInt8} {changes : List Change}
    (distinct : Distinct (bitEntries order data))
    (roomyEntries : AllAlong recordBit RoomyEntry new (bitEntries order data))
    (along : AllAlong Change.apply
      (fun bitset change => change.Fresh bitset ∧ change.Roomy bitset) (parse order data) changes) :
    let bitset := changes.foldl Change.apply (parse order data)
    bitset.Bijective ∧
    (∀ name, (∀ value, (bitset.set name value).isSet name = value) ∧
      ((∀ value other, other ≠ name →
        (bitset.set name value).isSet other = bitset.isSet other) ↔ bitset.Roomy name) ∧
      ∀ value, (bitset.set name value).Bijective ↔ bitset.Roomy name) ∧
    ∀ (attrType : BitVec 16) (builder : MessageBuilder), 4 ∣ builder.buf.length →
      ∃ payload,
        (attrIter order (((bitset.writeTo order attrType).write builder).buf.drop
          builder.buf.length)).head? = some (attrType.toNat % NLA_F_NET_BYTEORDER, payload) ∧
        ((∀ name, (parse order payload).valueOf name = bitset.valueOf name) ↔
          bitset.Writable) := by
  intro bitset
  have bijective : bitset.Bijective :=
    Change.bijective_run (bijective_parse order distinct roomyEntries) along
  refine ⟨bijective, fun name => ⟨fun value => ?_, others_set_iff bijective,
    fun value => bijective_set_iff bijective value⟩, fun attrType builder aligned =>
    ⟨_, head_written attrType aligned, valueOf_payload_iff bijective⟩⟩
  rw [isSet_eq, valueOf_set, Option.getD_some]

/-- A reply of the kernel with the bits 0 and 2. -/
def sparseReply : List UInt8 :=
  encodeAll .little
    [(BitsetAttr.BITS, encodeAll .little [(1, encodeAll .little
        [(BitsetBitAttr.INDEX, [0, 0, 0, 0]), (BitsetBitAttr.NAME, asBytes "rx" ++ [0])]),
      (1, encodeAll .little
        [(BitsetBitAttr.INDEX, [2, 0, 0, 0]), (BitsetBitAttr.NAME, asBytes "tx" ++ [0]),
          (BitsetBitAttr.VALUE, [])])])]

theorem one_value_per_name_sparse :
    let bitset := [Change.set "rx" true, .add 1 "gro" false, .set "lro" true].foldl Change.apply
      (parse .little sparseReply)
    bitset.Bijective ∧ bitset.Roomy "tso" := by
  have distinct : Distinct (bitEntries .little sparseReply) :=
    ⟨by decide +kernel, by decide +kernel⟩
  have roomy : AllAlong recordBit RoomyEntry new (bitEntries .little sparseReply) :=
    roomy_of_indexed (by decide +kernel) distinct.indices fun _ _ => rfl
  have run := @one_value_per_name .little sparseReply
    [.set "rx" true, .add 1 "gro" false, .set "lro" true] distinct roomy
    ⟨⟨trivial, by decide +kernel⟩, ⟨⟨by decide +kernel, by decide +kernel⟩, trivial⟩,
      ⟨trivial, by decide +kernel⟩, trivial⟩
  exact ⟨run.1, by decide +kernel⟩

/-- Setting a new name after a reply with a gap turns off another bit. -/
theorem set_overwrites :
    Distinct (bitEntries .little sparseReply) ∧
      (parse .little sparseReply).isSet "tx" = true ∧
      ((parse .little sparseReply).set "gro" false).isSet "tx" = false := by
  refine ⟨⟨?_, ?_⟩, ?_, ?_⟩
  · decide +kernel
  · decide +kernel
  · decide +kernel
  · decide +kernel

end Nlink.Ethtool
