import Nlink.Foundation.StableSort
import Nlink.NetlinkBuilder

namespace Nlink.Nftables

open Foundation Netlink List

/-!
# Normal forms of attribute streams

The kernel lists a rule's attributes by number and without the hint bits of
their types, the library in the order in which it wrote them.  Both are brought
to one form before they are compared: bytes that parse as attributes are
sorted by type at every depth, and all other bytes are left alone.
-/

section Normalize

variable (order : ByteOrder)

/-- Append one attribute and pad the output. -/
def emitTlv (out : List UInt8) (attr : Nat × List UInt8) : List UInt8 :=
  let out := out ++ order.toBytes 2 (attr.2.length + 4) ++
    order.toBytes 2 attr.1 ++ attr.2
  out ++ padding out.length

/-- Write attributes sorted by type; attributes of one type stay in order. -/
def emitSorted (attrs : List (Nat × List UInt8)) : List UInt8 :=
  (attrs.mergeSort fun first second => first.1 ≤ second.1).foldl (emitTlv order) []

/-- The attributes of bytes that parse as attributes from end to end, with the
payloads that parse brought to normal form.  Each level and each attribute uses
one unit of fuel. -/
def tryWalkTlvsFrom : Nat → List UInt8 → Option (List (Nat × List UInt8))
  | 0, _ => none
  | fuel + 1, bytes =>
      if bytes = [] then
        some []
      else if bytes.length < 4 then
        none
      else
        let len := order.ofBytes (bytes.take 2)
        if len < 4 ∨ bytes.length < len then
          none
        else
          let rawType := order.ofBytes ((bytes.drop 2).take 2)
          let payload := (bytes.take len).drop 4
          let normalized :=
            match tryWalkTlvsFrom fuel payload with
            | some inner => emitSorted order inner
            | none => payload
          if bytes.length < nlaAlign len then
            none
          else
            (tryWalkTlvsFrom fuel (bytes.drop (nlaAlign len))).map
              fun rest => (rawType % NLA_F_NET_BYTEORDER, normalized) :: rest

/-- `try_walk_tlvs`. -/
def tryWalkTlvs (bytes : List UInt8) : Option (List (Nat × List UInt8)) :=
  tryWalkTlvsFrom order (bytes.length + 1) bytes

/-- The normal form of the bytes that a diff compares. -/
def normalizeTlv (bytes : List UInt8) : List UInt8 :=
  match tryWalkTlvs order bytes with
  | some attrs => emitSorted order attrs
  | none => bytes

/-- A walk never runs out of fuel. -/
theorem tryWalkTlvsFrom_enough {fuel : Nat} {bytes : List UInt8} (enough : bytes.length < fuel) :
    tryWalkTlvsFrom order fuel bytes = tryWalkTlvs order bytes := by
  have agree : ∀ (length : Nat) (bytes : List UInt8) (first second : Nat),
      bytes.length ≤ length → bytes.length < first → bytes.length < second →
      tryWalkTlvsFrom order first bytes = tryWalkTlvsFrom order second bytes := by
    intro length
    induction length with
    | zero =>
        intro bytes first second short firstEnough secondEnough
        have empty : bytes = [] := eq_nil_of_length_eq_zero (Nat.le_zero.mp short)
        subst empty
        obtain ⟨first, rfl⟩ := Nat.exists_eq_succ_of_ne_zero (Nat.ne_of_gt firstEnough)
        obtain ⟨second, rfl⟩ := Nat.exists_eq_succ_of_ne_zero (Nat.ne_of_gt secondEnough)
        rfl
    | succ length ih =>
        intro bytes first second short firstEnough secondEnough
        obtain ⟨first, rfl⟩ := Nat.exists_eq_succ_of_ne_zero
          (Nat.ne_of_gt (Nat.lt_of_le_of_lt (Nat.zero_le _) firstEnough))
        obtain ⟨second, rfl⟩ := Nat.exists_eq_succ_of_ne_zero
          (Nat.ne_of_gt (Nat.lt_of_le_of_lt (Nat.zero_le _) secondEnough))
        rw [tryWalkTlvsFrom, tryWalkTlvsFrom]
        split
        · rfl
        · rename_i nonempty
          split
          · rfl
          · rename_i headerFits
            simp only
            split
            · rfl
            · rename_i lenFits
              rw [not_or, Nat.not_lt, Nat.not_lt] at lenFits
              have payloadShort : ((bytes.take (order.ofBytes (bytes.take 2))).drop 4).length ≤
                    bytes.length - 4 := by
                rw [length_drop, length_take]
                omega
              have restShort :
                  (bytes.drop (nlaAlign (order.ofBytes (bytes.take 2)))).length ≤
                    bytes.length - 4 := by
                have aligned := le_nlaAlign (order.ofBytes (bytes.take 2))
                rw [length_drop]
                omega
              rw [ih _ first second (by omega) (by omega) (by omega),
                ih (bytes.drop (nlaAlign (order.ofBytes (bytes.take 2))))
                  first second (by omega) (by omega) (by omega)]
  exact agree bytes.length bytes fuel (bytes.length + 1) (Nat.le_refl _) enough (Nat.lt_succ_self _)

end Normalize

/-!
## What a normal form keeps

Bytes that parse as attributes are a stream: the attributes one after the
other, each with some padding.  The normal form of a stream keeps, for every
type, the normal forms of the payloads in their order; it loses the order of
attributes of different types, the hint bits and what the padding holds.  All
other bytes are their own normal form.
-/

/-- An attribute of a stream, with the bytes that pad it. -/
@[ext]
structure RawAttr where
  attrType : Nat
  payload : List UInt8
  pad : List UInt8
  typeFits : attrType < 256 ^ 2
  lengthFits : payload.length + 4 < 256 ^ 2
  padded : pad.length = nlaAlign (payload.length + 4) - (payload.length + 4)

namespace RawAttr

/-- The type without its two hint bits. -/
def kind (attr : RawAttr) : Nat :=
  attr.attrType % NLA_F_NET_BYTEORDER

def bytes (order : ByteOrder) (attr : RawAttr) : List UInt8 :=
  order.toBytes 2 (attr.payload.length + 4) ++
    (order.toBytes 2 attr.attrType ++ (attr.payload ++ attr.pad))

theorem bytes_length (order : ByteOrder) (attr : RawAttr) :
    (attr.bytes order).length = nlaAlign (attr.payload.length + 4) := by
  have aligned := le_nlaAlign (attr.payload.length + 4)
  simp only [bytes, length_append, ByteOrder.toBytes_length, attr.padded]
  omega

end RawAttr

/-- The bytes of a list of attributes. -/
def stream (order : ByteOrder) (attrs : List RawAttr) : List UInt8 :=
  attrs.flatMap (RawAttr.bytes order)

def payloadsOf (kind : Nat) (attrs : List RawAttr) : List (List UInt8) :=
  (withKey RawAttr.kind kind attrs).map RawAttr.payload

theorem payloadsOf_cons (kind : Nat) (attr : RawAttr) (attrs : List RawAttr) :
    payloadsOf kind (attr :: attrs) =
      if attr.kind = kind then
        attr.payload :: payloadsOf kind attrs
      else
        payloadsOf kind attrs := by
  rw [payloadsOf, withKey, filter_cons]
  split
  · rename_i ofKind
    rw [if_pos (of_decide_eq_true ofKind)]
    rfl
  · rename_i otherKind
    rw [if_neg (by simpa using otherKind)]
    rfl

section Streams

variable {order : ByteOrder}

theorem stream_cons (attr : RawAttr) (attrs : List RawAttr) :
    stream order (attr :: attrs) = attr.bytes order ++ stream order attrs :=
  flatMap_cons

theorem payload_length_lt {attr : RawAttr} {attrs : List RawAttr} (member : attr ∈ attrs) :
    attr.payload.length < (stream order attrs).length := by
  induction attrs with
  | nil => cases member
  | cons head rest ih =>
      rw [stream_cons, length_append]
      rcases mem_cons.mp member with rfl | later
      · have aligned := le_nlaAlign (attr.payload.length + 4)
        rw [RawAttr.bytes_length]
        omega
      · exact Nat.lt_of_lt_of_le (ih later) (Nat.le_add_left _ _)

theorem bytes_append_inj {first second : RawAttr} {firstRest secondRest : List UInt8}
    (same : first.bytes order ++ firstRest = second.bytes order ++ secondRest) :
    first = second ∧ firstRest = secondRest := by
  simp only [RawAttr.bytes, List.append_assoc] at same
  obtain ⟨lengths, same⟩ := append_inj same (by simp)
  obtain ⟨types, same⟩ := append_inj same (by simp)
  have sameLength : first.payload.length + 4 = second.payload.length + 4 := by
    rw [← order.ofBytes_toBytes first.lengthFits, lengths, order.ofBytes_toBytes second.lengthFits]
  have sameType : first.attrType = second.attrType := by
    rw [← order.ofBytes_toBytes first.typeFits, types, order.ofBytes_toBytes second.typeFits]
  obtain ⟨payloads, same⟩ := append_inj same (by omega)
  obtain ⟨pads, rests⟩ := append_inj same (by rw [first.padded, second.padded, sameLength])
  exact ⟨RawAttr.ext sameType payloads pads, rests⟩

theorem stream_inj {first second : List RawAttr} (same : stream order first = stream order second) :
    first = second := by
  induction first generalizing second with
  | nil =>
      cases second with
      | nil => rfl
      | cons other rest =>
          have lengths := congrArg List.length same
          have aligned := le_nlaAlign (other.payload.length + 4)
          rw [stream_cons, length_append, RawAttr.bytes_length] at lengths
          simp only [stream, flatMap_nil, length_nil] at lengths
          omega
  | cons head tail ih =>
      cases second with
      | nil =>
          have lengths := congrArg List.length same
          have aligned := le_nlaAlign (head.payload.length + 4)
          rw [stream_cons, length_append, RawAttr.bytes_length] at lengths
          simp only [stream, flatMap_nil, length_nil] at lengths
          omega
      | cons other rest =>
          rw [stream_cons, stream_cons] at same
          obtain ⟨heads, tails⟩ := bytes_append_inj same
          rw [heads, ih tails]

end Streams

section Walking

variable (order : ByteOrder)

theorem tryWalkTlvs_bytes_append (attr : RawAttr) (rest : List UInt8) :
    tryWalkTlvs order (attr.bytes order ++ rest) =
      (tryWalkTlvs order rest).map fun later =>
        (attr.kind, normalizeTlv order attr.payload) :: later := by
  have aligned := le_nlaAlign (attr.payload.length + 4)
  have bytesLength := attr.bytes_length order
  have length : (attr.bytes order ++ rest).length =
        nlaAlign (attr.payload.length + 4) + rest.length := by
    rw [length_append, bytesLength]
  have len : order.ofBytes ((attr.bytes order ++ rest).take 2) = attr.payload.length + 4 := by
    rw [RawAttr.bytes, List.append_assoc, take_left' (by simp),
      order.ofBytes_toBytes attr.lengthFits]
  have rawType : order.ofBytes (((attr.bytes order ++ rest).drop 2).take 2) =
        attr.attrType := by
    rw [RawAttr.bytes, List.append_assoc, drop_left' (by simp), List.append_assoc,
      take_left' (by simp), order.ofBytes_toBytes attr.typeFits]
  have payload : ((attr.bytes order ++ rest).take (attr.payload.length + 4)).drop 4 =
        attr.payload := by
    rw [RawAttr.bytes, drop_take, show (4 : Nat) = 2 + 2 from rfl,
      ← drop_drop, List.append_assoc, drop_left' (by simp),
      List.append_assoc, drop_left' (by simp), List.append_assoc]
    exact take_left' (by omega)
  have behind : (attr.bytes order ++ rest).drop (nlaAlign (attr.payload.length + 4)) =
        rest :=
    drop_left' bytesLength
  have nonempty : attr.bytes order ++ rest ≠ [] := by
    intro empty
    rw [empty, length_nil] at length
    omega
  rw [tryWalkTlvs, tryWalkTlvsFrom, if_neg nonempty, if_neg (by omega)]
  simp only [len, rawType, payload, behind]
  rw [if_neg (by omega), if_neg (by omega), tryWalkTlvsFrom_enough order (by omega),
    tryWalkTlvsFrom_enough order (by omega)]
  rfl

theorem tryWalkTlvs_stream (attrs : List RawAttr) : tryWalkTlvs order (stream order attrs) =
      some (attrs.map fun attr =>
        (attr.kind, normalizeTlv order attr.payload)) := by
  induction attrs with
  | nil => rfl
  | cons attr attrs ih =>
      rw [stream_cons, tryWalkTlvs_bytes_append, ih]
      rfl

theorem slices (bytes : List UInt8) {len whole : Nat} (header : 4 ≤ len) (padded : len ≤ whole) :
    bytes = bytes.take 2 ++
        ((bytes.drop 2).take 2 ++
          ((bytes.take len).drop 4 ++
            ((bytes.drop len).take (whole - len) ++ bytes.drop whole))) := by
  have halves : bytes.take 4 = bytes.take 2 ++ (bytes.drop 2).take 2 := by
    rw [show (4 : Nat) = 2 + 2 from rfl, take_add]
  have untilPayload : bytes.take len = bytes.take 4 ++ (bytes.take len).drop 4 := by
    conv_lhs => rw [← take_append_drop 4 (bytes.take len)]
    rw [take_take, Nat.min_eq_left header]
  have behind : bytes.drop len = (bytes.drop len).take (whole - len) ++ bytes.drop whole := by
    conv_lhs => rw [← take_append_drop (whole - len) (bytes.drop len)]
    rw [drop_drop, Nat.add_sub_cancel' padded]
  rw [← behind, ← List.append_assoc, ← halves, ← List.append_assoc,
    ← untilPayload, take_append_drop]

/-- Bytes that a walk gets through begin with an attribute. -/
theorem exists_bytes_append {bytes : List UInt8} {found : List (Nat × List UInt8)}
    (walked : tryWalkTlvs order bytes = some found) (nonempty : bytes ≠ []) :
    ∃ attr rest, bytes = RawAttr.bytes order attr ++ rest := by
  rw [tryWalkTlvs, tryWalkTlvsFrom, if_neg nonempty] at walked
  split at walked
  · cases walked
  · rename_i headerFits
    simp only at walked
    split at walked
    · cases walked
    · rename_i lenFits
      rw [not_or, Nat.not_lt, Nat.not_lt] at lenFits
      split at walked
      · cases walked
      · rename_i paddingFits
        have lenBytes : (bytes.take 2).length = 2 := by
          rw [length_take]
          omega
        have typeBytes : ((bytes.drop 2).take 2).length = 2 := by
          rw [length_take, length_drop]
          omega
        have lenBound := order.ofBytes_lt (bytes.take 2)
        have typeBound := order.ofBytes_lt ((bytes.drop 2).take 2)
        have writtenLen := order.toBytes_ofBytes (bytes.take 2)
        have writtenType := order.toBytes_ofBytes ((bytes.drop 2).take 2)
        rw [lenBytes] at lenBound writtenLen
        rw [typeBytes] at typeBound writtenType
        generalize order.ofBytes (bytes.take 2) = len at *
        generalize order.ofBytes ((bytes.drop 2).take 2) = rawType at *
        have aligned := le_nlaAlign len
        have payloadLength : ((bytes.take len).drop 4).length = len - 4 := by
          rw [length_drop, length_take]
          omega
        have wholeLength : ((bytes.take len).drop 4).length + 4 = len := by omega
        refine
          ⟨{ attrType := rawType
             payload := (bytes.take len).drop 4
             pad := (bytes.drop len).take (nlaAlign len - len)
             typeFits := typeBound
             lengthFits := by
               rw [wholeLength]
               exact lenBound
             padded := by
               rw [wholeLength, length_take, length_drop]
               omega },
            bytes.drop (nlaAlign len), ?_⟩
        simp only [RawAttr.bytes, wholeLength, writtenLen, writtenType, List.append_assoc]
        exact slices bytes lenFits.1 aligned

theorem exists_stream {bytes : List UInt8} {found : List (Nat × List UInt8)}
    (walked : tryWalkTlvs order bytes = some found) : ∃ attrs, bytes = stream order attrs := by
  induction size : bytes.length using Nat.strong_induction_on
    generalizing bytes found with
  | h length ih =>
      by_cases empty : bytes = []
      · exact ⟨[], empty⟩
      · obtain ⟨attr, rest, rfl⟩ := exists_bytes_append order walked empty
        rw [tryWalkTlvs_bytes_append] at walked
        obtain ⟨later, walkedLater, _⟩ := Option.map_eq_some_iff.mp walked
        have shorter : rest.length < length := by
          have aligned := le_nlaAlign (attr.payload.length + 4)
          rw [← size, length_append, RawAttr.bytes_length]
          omega
        obtain ⟨attrs, rfl⟩ := ih rest.length shorter walkedLater rfl
        exact ⟨attr :: attrs, (stream_cons attr attrs).symm⟩

theorem stream_or_normal (bytes : List UInt8) : (∃ attrs, bytes = stream order attrs) ∨
      normalizeTlv order bytes = bytes := by
  cases walked : tryWalkTlvs order bytes with
  | none =>
      refine Or.inr ?_
      rw [normalizeTlv, walked]
  | some found => exact Or.inl (exists_stream order walked)

end Walking

section Emitting

variable (order : ByteOrder)

def tlvBytes (attr : Nat × List UInt8) : List UInt8 :=
  order.toBytes 2 (attr.2.length + 4) ++
    (order.toBytes 2 attr.1 ++ (attr.2 ++ padding (attr.2.length + 4)))

theorem tlvBytes_length (attr : Nat × List UInt8) :
    (tlvBytes order attr).length = nlaAlign (attr.2.length + 4) := by
  have aligned := le_nlaAlign (attr.2.length + 4)
  simp only [tlvBytes, padding, length_append, ByteOrder.toBytes_length, length_replicate]
  omega

theorem emitTlv_eq {out : List UInt8} (aligned : 4 ∣ out.length) (attr : Nat × List UInt8) :
    emitTlv order out attr = out ++ tlvBytes order attr := by
  have length :
      (out ++ order.toBytes 2 (attr.2.length + 4) ++ order.toBytes 2 attr.1 ++
        attr.2).length = out.length + (attr.2.length + 4) := by
    simp only [length_append, ByteOrder.toBytes_length]
    omega
  simp only [emitTlv]
  rw [length, padding_add aligned]
  simp only [tlvBytes, List.append_assoc]

theorem foldl_emitTlv {out : List UInt8} (aligned : 4 ∣ out.length)
    (attrs : List (Nat × List UInt8)) :
    attrs.foldl (emitTlv order) out = out ++ attrs.flatMap (tlvBytes order) := by
  induction attrs generalizing out with
  | nil => simp
  | cons attr attrs ih =>
      have stillAligned : 4 ∣ (out ++ tlvBytes order attr).length := by
        rw [length_append, tlvBytes_length]
        exact Nat.dvd_add aligned (dvd_nlaAlign _)
      rw [foldl_cons, emitTlv_eq order aligned, ih stillAligned, flatMap_cons, List.append_assoc]

theorem emitSorted_eq (attrs : List (Nat × List UInt8)) : emitSorted order attrs =
      (sortByKey Prod.fst attrs).flatMap (tlvBytes order) := by
  have empty : 4 ∣ ([] : List UInt8).length := Nat.dvd_zero 4
  have written := foldl_emitTlv order empty (sortByKey Prod.fst attrs)
  rw [List.nil_append] at written
  exact written

theorem normalizeTlv_stream (attrs : List RawAttr) : normalizeTlv order (stream order attrs) =
      emitSorted order (attrs.map fun attr =>
        (attr.kind, normalizeTlv order attr.payload)) := by
  rw [normalizeTlv, tryWalkTlvs_stream]

theorem normalizeTlv_length (bytes : List UInt8) :
    (normalizeTlv order bytes).length = bytes.length := by
  induction size : bytes.length using Nat.strong_induction_on
    generalizing bytes with
  | h length ih =>
      rcases stream_or_normal order bytes with ⟨attrs, rfl⟩ | normal
      · have each : ∀ attr ∈ attrs,
            (tlvBytes order (attr.kind, normalizeTlv order attr.payload)).length =
                (attr.bytes order).length := by
          intro attr member
          have shorter : attr.payload.length < length := by
            rw [← size]
            exact payload_length_lt member
          rw [tlvBytes_length, RawAttr.bytes_length, ih _ shorter attr.payload rfl]
        rw [normalizeTlv_stream, emitSorted_eq, ((sortByKey_perm _).flatMap_right _).length_eq, ←
          size, stream, flatMap_map, length_flatMap, length_flatMap]
        exact congrArg List.sum (map_congr_left each)
      · rw [normal, size]

def RawAttr.normal (attr : RawAttr) : RawAttr where
  attrType := attr.kind
  payload := normalizeTlv order attr.payload
  pad := padding (attr.payload.length + 4)
  typeFits := Nat.lt_of_le_of_lt (Nat.mod_le _ _) attr.typeFits
  lengthFits := by
    rw [normalizeTlv_length]
    exact attr.lengthFits
  padded := by rw [normalizeTlv_length, padding, length_replicate]

theorem normalizeTlv_stream_eq (attrs : List RawAttr) : normalizeTlv order (stream order attrs) =
      stream order (sortByKey RawAttr.attrType (attrs.map (RawAttr.normal order))) := by
  have written : ∀ attr : RawAttr, tlvBytes order (attr.kind, normalizeTlv order attr.payload) =
        (attr.normal order).bytes order := by
    intro attr
    simp only [tlvBytes, RawAttr.bytes, RawAttr.normal, normalizeTlv_length]
  rw [normalizeTlv_stream, emitSorted_eq, sortByKey_map, sortByKey_map, stream,
    flatMap_map, flatMap_map]
  exact flatMap_congr fun attr _ => written attr

theorem map_normal_eq_iff {kind : Nat} {first second : List RawAttr}
    (firstKind : ∀ attr ∈ first, attr.kind = kind)
    (secondKind : ∀ attr ∈ second, attr.kind = kind) :
    first.map (RawAttr.normal order) = second.map (RawAttr.normal order) ↔
      (first.map RawAttr.payload).map (normalizeTlv order) =
        (second.map RawAttr.payload).map (normalizeTlv order) := by
  have payloads : ∀ attrs : List RawAttr, (attrs.map (RawAttr.normal order)).map RawAttr.payload =
        (attrs.map RawAttr.payload).map (normalizeTlv order) := by
    intro attrs
    rw [map_map, map_map]
    rfl
  rw [← payloads, ← payloads]
  constructor
  · intro same
    rw [same]
  · intro same
    have counts := congrArg List.length same
    simp only [length_map] at counts
    refine ext_getElem (by simpa using counts) fun index firstBound secondBound => ?_
    have payload := getElem_of_eq same (by rw [length_map]; exact firstBound)
    rw [getElem_map, getElem_map] at payload
    rw [getElem_map, getElem_map] at payload ⊢
    refine RawAttr.ext ?_ payload ?_
    · have firstIs := firstKind _ (getElem_mem (by rw [length_map] at firstBound; exact firstBound))
      have secondIs := secondKind _ (getElem_mem
        (by rw [length_map] at secondBound; exact secondBound))
      exact firstIs.trans secondIs.symm
    · have lengths := congrArg List.length payload
      simp only [RawAttr.normal, normalizeTlv_length] at lengths ⊢
      rw [lengths]

/-- Streams agree when they carry the same payloads for each kind. -/
theorem normalizeTlv_stream_eq_iff {first second : List RawAttr} :
    normalizeTlv order (stream order first) = normalizeTlv order (stream order second) ↔ ∀ kind,
        (payloadsOf kind first).map (normalizeTlv order) =
          (payloadsOf kind second).map (normalizeTlv order) := by
  have kept : ∀ kind (attrs : List RawAttr),
      withKey RawAttr.attrType kind (attrs.map (RawAttr.normal order)) =
        (withKey RawAttr.kind kind attrs).map (RawAttr.normal order) :=
    fun kind attrs => withKey_map (RawAttr.normal order) kind attrs
  have ofKind : ∀ kind, (withKey RawAttr.kind kind first).map (RawAttr.normal order) =
          (withKey RawAttr.kind kind second).map (RawAttr.normal order) ↔
        (payloadsOf kind first).map (normalizeTlv order) =
          (payloadsOf kind second).map (normalizeTlv order) :=
    fun _ => map_normal_eq_iff order (fun _ member => (mem_withKey.mp member).2)
      (fun _ member => (mem_withKey.mp member).2)
  rw [normalizeTlv_stream_eq, normalizeTlv_stream_eq]
  constructor
  · intro same kind
    have sorted := sortByKey_eq_iff.mp (stream_inj same) kind
    rw [kept, kept] at sorted
    exact (ofKind kind).mp sorted
  · intro same
    have alike : ∀ kind, withKey RawAttr.attrType kind (first.map (RawAttr.normal order)) =
          withKey RawAttr.attrType kind (second.map (RawAttr.normal order)) := by
      intro kind
      rw [kept, kept]
      exact (ofKind kind).mpr (same kind)
    rw [sortByKey_eq_iff.mpr alike]

theorem exists_stream_of_same {attrs : List RawAttr} {bytes : List UInt8}
    (same : normalizeTlv order (stream order attrs) = normalizeTlv order bytes) :
    ∃ others, bytes = stream order others := by
  rcases stream_or_normal order bytes with isStream | normal
  · exact isStream
  · rw [normal, normalizeTlv_stream_eq] at same
    exact ⟨_, same.symm⟩

end Emitting

/-- Bytes that read as the same attributes: they are equal, or both are streams
in which, for every kind, the payloads read as the same attributes one by one.
The order of attributes of different kinds, the hint bits of their types and
the padding may differ. -/
inductive SameAttrs (order : ByteOrder) : List UInt8 → List UInt8 → Prop
  | refl (bytes : List UInt8) : SameAttrs order bytes bytes
  | stream (first second : List RawAttr)
      (counts : ∀ kind, (payloadsOf kind first).length = (payloadsOf kind second).length)
      (payloads : ∀ kind, ∀ pair ∈ (payloadsOf kind first).zip (payloadsOf kind second),
          SameAttrs order pair.1 pair.2) :
      SameAttrs order (stream order first) (stream order second)

theorem map_eq_map_iff_zip {image : α → β} {first second : List α} :
    first.map image = second.map image ↔ first.length = second.length ∧
        ∀ pair ∈ first.zip second, image pair.1 = image pair.2 := by
  induction first generalizing second with
  | nil => cases second <;> simp
  | cons head tail ih =>
      cases second with
      | nil => simp
      | cons other rest =>
          simp only [map_cons, List.cons.injEq, ih, length_cons, Nat.add_right_cancel_iff,
            zip_cons_cons, forall_mem_cons]
          exact and_left_comm

theorem normalizeTlv_eq_iff (order : ByteOrder) (first second : List UInt8) :
    normalizeTlv order first = normalizeTlv order second ↔ SameAttrs order first second := by
  constructor
  · intro same
    induction size : first.length using Nat.strong_induction_on
      generalizing first second with
    | h length ih =>
        by_cases isStream : ∃ attrs, first = stream order attrs
        · obtain ⟨attrs, rfl⟩ := isStream
          obtain ⟨others, rfl⟩ := exists_stream_of_same order same
          have alike := (normalizeTlv_stream_eq_iff order).mp same
          refine SameAttrs.stream attrs others (fun kind => (map_eq_map_iff_zip.mp (alike kind)).1)
            (fun kind pair member => ?_)
          obtain ⟨attr, ofKind, isPayload⟩ := mem_map.mp (of_mem_zip member).1
          have shorter : pair.1.length < length := by
            rw [← size, ← isPayload]
            exact payload_length_lt (mem_withKey.mp ofKind).1
          exact ih _ shorter pair.1 pair.2 ((map_eq_map_iff_zip.mp (alike kind)).2 pair member) rfl
        · have otherStream : ¬ ∃ others, second = stream order others := by
            rintro ⟨others, rfl⟩
            exact isStream (exists_stream_of_same order same.symm)
          have firstNormal := (stream_or_normal order first).resolve_left isStream
          have secondNormal := (stream_or_normal order second).resolve_left otherStream
          have equal : first = second := by rw [← firstNormal, same, secondNormal]
          exact equal ▸ SameAttrs.refl first
  · intro same
    induction same with
    | refl bytes => rfl
    | stream attrs others counts payloads ih =>
        exact (normalizeTlv_stream_eq_iff order).mpr fun kind =>
          map_eq_map_iff_zip.mpr ⟨counts kind, ih kind⟩

end Nlink.Nftables
