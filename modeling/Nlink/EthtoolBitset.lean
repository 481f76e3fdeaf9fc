import Nlink.Foundation.Cells
import Nlink.GenlRequest
import Nlink.NetlinkAttrCut
import Nlink.NftablesRuleset

namespace Nlink.Ethtool

open Foundation Netlink List
open Nftables (fromUtf8 trimEndNul)

/-!
# Bitsets

A bitset has the value of each bit by its index, and maps between names and
indices.  A bit that comes without an index is given the number of names.
-/

namespace BitsetAttr

def NOMASK : Nat := 1
def SIZE : Nat := 2
def BITS : Nat := 3
def VALUE : Nat := 4
def MASK : Nat := 5

end BitsetAttr

namespace BitsetBitAttr

def INDEX : Nat := 1
def NAME : Nat := 2
def VALUE : Nat := 3

end BitsetBitAttr

structure EthtoolBitset where
  size : BitVec 32
  values : HashMap (BitVec 32) Bool
  names : HashMap (BitVec 32) String
  nameToIndex : HashMap String (BitVec 32)

/-- What the loop over a list entry has found. -/
structure BitEntry where
  index : Option (BitVec 32)
  name : Option String
  value : Bool

namespace EthtoolBitset

def new : EthtoolBitset where
  size := 0
  values := ∅
  names := ∅
  nameToIndex := ∅

variable (order : ByteOrder)

/-!
## Parsing
-/

def entryAttr (entry : BitEntry) (attr : Attribute) : BitEntry :=
  let (attrType, payload) := attr
  if attrType = BitsetBitAttr.INDEX ∧ 4 ≤ payload.length then
    { entry with index := some (readU32 order payload) }
  else if attrType = BitsetBitAttr.NAME then
    { entry with name := some (trimEndNul ((fromUtf8 payload).getD "")) }
  else if attrType = BitsetBitAttr.VALUE then
    { entry with value := true }
  else
    entry

/-- The inner loop of `parse_bits`. -/
def bitEntry (bitData : List UInt8) : BitEntry :=
  (attrIter order bitData).foldl (entryAttr order) { index := none, name := none, value := false }

/-- The index that a bit without one is given. -/
def nextIndex (bitset : EthtoolBitset) : BitVec 32 :=
  BitVec.ofNat 32 bitset.names.entries.length

/-- What `parse_bits` does with an entry; one with neither index nor name is
dropped. -/
def recordBit (bitset : EthtoolBitset) (entry : BitEntry) : EthtoolBitset :=
  let idx := entry.index.getD bitset.nextIndex
  if entry.name.isSome ∨ entry.index.isSome then
    let bitset := { bitset with values := bitset.values.insert idx entry.value }
    match entry.name with
    | some n =>
        { bitset with
          nameToIndex := bitset.nameToIndex.insert n idx
          names := bitset.names.insert idx n }
    | none => bitset
  else
    bitset

/-- `parse_bits`. -/
def parseBits (bitset : EthtoolBitset) (data : List UInt8) : EthtoolBitset :=
  (attrIter order data).foldl (fun bitset attr => bitset.recordBit (bitEntry order attr.2)) bitset

/-- A bit of a bitmap, if the bitmap is long enough. -/
def bitAt (bitmap : List UInt8) (bitIdx : Nat) : Option Bool :=
  bitmap[bitIdx / 8]?.map fun byte => byte.toNat.testBit (bitIdx % 8)

/-- One bit in the loop of `parse_compact`. -/
def compactBit (value : List UInt8) (mask : Option (List UInt8)) (isNomask : Bool)
    (bitset : EthtoolBitset) (bitIdx : Nat) : EthtoolBitset :=
  match bitAt value bitIdx with
  | none => bitset
  | some bitValue =>
      let inMask :=
        isNomask ||
          match mask with
          | some m => (bitAt m bitIdx).getD false
          | none => true
      if inMask then
        { bitset with values := bitset.values.insert (BitVec.ofNat 32 bitIdx) bitValue }
      else
        bitset

/-- `parse_compact`. -/
def parseCompact (bitset : EthtoolBitset) (value : List UInt8) (mask : Option (List UInt8))
    (isNomask : Bool) : EthtoolBitset :=
  let bitsCount := min bitset.size.toNat (value.length * 8 % 2 ^ 32)
  (List.range bitsCount).foldl (compactBit value mask isNomask) bitset

/-- What the loop of `parse` keeps. -/
structure Parsing where
  bitset : EthtoolBitset
  compactValue : Option (List UInt8)
  compactMask : Option (List UInt8)
  isNomask : Bool

/-- One attribute in the loop of `parse`. -/
def parseAttr (parsing : Parsing) (attr : Attribute) : Parsing :=
  let (attrType, payload) := attr
  if attrType = BitsetAttr.NOMASK then
    { parsing with isNomask := true }
  else if attrType = BitsetAttr.SIZE ∧ 4 ≤ payload.length then
    { parsing with bitset := { parsing.bitset with size := readU32 order payload } }
  else if attrType = BitsetAttr.VALUE then
    { parsing with compactValue := some payload }
  else if attrType = BitsetAttr.MASK then
    { parsing with compactMask := some payload }
  else if attrType = BitsetAttr.BITS then
    { parsing with bitset := parsing.bitset.parseBits order payload }
  else
    parsing

/-- `parse`, which never fails. -/
def parse (data : List UInt8) : EthtoolBitset :=
  let parsing := (attrIter order data).foldl (parseAttr order)
    { bitset := new, compactValue := none, compactMask := none, isNomask := false }
  match parsing.compactValue with
  | some value => parsing.bitset.parseCompact value parsing.compactMask parsing.isNomask
  | none => parsing.bitset

/-!
## Access
-/

/-- `is_set`. -/
def isSet (bitset : EthtoolBitset) (name : String) : Bool :=
  match bitset.nameToIndex.lookup name with
  | some idx => (bitset.values.lookup idx).getD false
  | none => false

/-- `set`. -/
def set (bitset : EthtoolBitset) (name : String) (value : Bool) : EthtoolBitset :=
  match bitset.nameToIndex.lookup name with
  | some idx => { bitset with values := bitset.values.insert idx value }
  | none =>
      let idx := bitset.nextIndex
      { bitset with
        names := bitset.names.insert idx name
        nameToIndex := bitset.nameToIndex.insert name idx
        values := bitset.values.insert idx value }

/-- `add`. -/
def add (bitset : EthtoolBitset) (index : BitVec 32) (name : String) (value : Bool) :
    EthtoolBitset where
  names := bitset.names.insert index name
  nameToIndex := bitset.nameToIndex.insert name index
  values := bitset.values.insert index value
  size := if bitset.size ≤ index then index + 1 else bitset.size

/-!
## Writing
-/

/-- The entries in the order of their names.  Names are unique, so it does not
matter that the sort of the program is unstable. -/
def entries (bitset : EthtoolBitset) : List (BitVec 32 × String) :=
  bitset.names.pairs.mergeSort fun first second => first.2 ≤ second.2

/-- One entry in the loop of `write_to`. -/
def writeEntry (bitset : EthtoolBitset) (entry : (BitVec 32 × String) × Nat) : Writer order :=
  let ((idx, name), i) := entry
  let entryId := (BitVec.ofNat 16 i + 1).toNat
  .nest (entryId ||| NLA_F_NESTED) <| .all
    [.str BitsetBitAttr.NAME name,
      .when ((bitset.values.lookup idx).getD false) (.attr BitsetBitAttr.VALUE [])]

/-- `write_to`. -/
def writeTo (bitset : EthtoolBitset) (attrType : BitVec 16) : Writer order :=
  .nest (attrType.toNat ||| NLA_F_NESTED) <|
    .nest (BitsetAttr.BITS ||| NLA_F_NESTED) <|
      .all (bitset.entries.zipIdx.map (bitset.writeEntry order))

end EthtoolBitset

open Nftables (fromUtf8 trimEndNul fromUtf8_asBytes)

/-!
## One value per name

As long as a bit that is named gets an index that no name has, the two maps
between names and indices invert each other, and each name has a value of its own.
-/

namespace EthtoolBitset

/-- The maps between names and indices invert each other. -/
def Bijective (bitset : EthtoolBitset) : Prop :=
  Inverse bitset.names bitset.nameToIndex

/-- The value of a name, if the bitset has the name. -/
def valueOf (bitset : EthtoolBitset) (name : String) : Option Bool :=
  (bitset.nameToIndex.lookup name).map fun idx => (bitset.values.lookup idx).getD false

theorem isSet_eq (bitset : EthtoolBitset) (name : String) :
    bitset.isSet name = (bitset.valueOf name).getD false := by
  rw [isSet, valueOf]
  cases bitset.nameToIndex.lookup name <;> rfl

/-!
## Naming a bit
-/

/-- A bit was entered in all three maps. -/
structure Named (bitset : EthtoolBitset) (idx : BitVec 32) (name : String) (value : Bool)
    (after : EthtoolBitset) : Prop where
  names : after.names = bitset.names.insert idx name
  nameToIndex : after.nameToIndex = bitset.nameToIndex.insert name idx
  values : after.values = bitset.values.insert idx value

/-- One name has a value, and the others have what they had. -/
def Updates (bitset : EthtoolBitset) (name : String) (value : Bool) (after : EthtoolBitset) :
    Prop :=
  ∀ other, after.valueOf other = if other = name then some value else bitset.valueOf other

section Named

variable {bitset after : EthtoolBitset} {idx : BitVec 32} {name : String} {value : Bool}

section

variable (named : Named bitset idx name value after)

include named

theorem Named.bijective_iff
    (bijective : bitset.Bijective) (fresh : bitset.nameToIndex.lookup name = none) :
    after.Bijective ↔ bitset.names.lookup idx = none := by
  rw [Bijective, named.names, named.nameToIndex]
  exact bijective.insert_iff fresh

theorem Named.own : after.valueOf name = some value := by
  rw [valueOf, named.nameToIndex, AList.lookup_insert, Option.map_some, named.values,
    AList.lookup_insert, Option.getD_some]

theorem Named.updates
    (bijective : bitset.Bijective) (roomy : bitset.names.lookup idx = none) :
    Updates bitset name value after := by
  intro other
  by_cases same : other = name
  · rw [if_pos same, same, named.own]
  · rw [if_neg same, valueOf, named.nameToIndex, AList.lookup_insert_ne same, valueOf]
    cases held : bitset.nameToIndex.lookup other with
    | none => rfl
    | some otherIdx =>
        have otherIndex : otherIdx ≠ idx := by
          rintro rfl
          rw [(bijective _ _).mpr held] at roomy
          cases roomy
        rw [Option.map_some, Option.map_some, named.values, AList.lookup_insert_ne otherIndex]

end

theorem updates_of_held {held : bitset.nameToIndex.lookup name = some idx}
    (bijective : bitset.Bijective) :
    Updates bitset name value { bitset with values := bitset.values.insert idx value } := by
  intro other
  by_cases same : other = name
  · rw [if_pos same, same, valueOf, held, Option.map_some, AList.lookup_insert, Option.getD_some]
  · rw [if_neg same, valueOf, valueOf]
    cases otherHeld : bitset.nameToIndex.lookup other with
    | none => rfl
    | some otherIdx =>
        have otherIndex : otherIdx ≠ idx := by
          rintro rfl
          have sameName := ((bijective _ _).mpr otherHeld).symm.trans ((bijective _ _).mpr held)
          exact same (Option.some.inj sameName)
        rw [Option.map_some, Option.map_some, AList.lookup_insert_ne otherIndex]

end Named

/-!
## Setting and adding
-/

/-- The index that a new name is given is not in use. -/
def Roomy (bitset : EthtoolBitset) (name : String) : Prop :=
  bitset.nameToIndex.lookup name = none → bitset.names.lookup bitset.nextIndex = none

instance (bitset : EthtoolBitset) (name : String) : Decidable (bitset.Roomy name) :=
  inferInstanceAs (Decidable (_ → _))

section Set

variable {bitset : EthtoolBitset} {name : String}

variable (value : Bool)

theorem named_set (fresh : bitset.nameToIndex.lookup name = none) :
    Named bitset bitset.nextIndex name value (bitset.set name value) := by
  rw [set, fresh]
  exact ⟨rfl, rfl, rfl⟩

theorem set_of_held {idx : BitVec 32} (held : bitset.nameToIndex.lookup name = some idx) :
    bitset.set name value = { bitset with values := bitset.values.insert idx value } := by
  rw [set, held]

theorem valueOf_set : (bitset.set name value).valueOf name = some value := by
  cases held : bitset.nameToIndex.lookup name with
  | none => exact (named_set value held).own
  | some idx =>
      rw [set_of_held value held, valueOf, held, Option.map_some, AList.lookup_insert,
        Option.getD_some]

theorem updates_set (bijective : bitset.Bijective) (roomy : bitset.Roomy name) (value : Bool) :
    Updates bitset name value (bitset.set name value) := by
  cases held : bitset.nameToIndex.lookup name with
  | none => exact (named_set value held).updates bijective (roomy held)
  | some idx =>
      rw [set_of_held value held]
      exact @updates_of_held _ _ _ _ held bijective

theorem bijective_set_iff (bijective : bitset.Bijective) (value : Bool) :
    (bitset.set name value).Bijective ↔ bitset.Roomy name := by
  cases held : bitset.nameToIndex.lookup name with
  | none =>
      rw [(named_set value held).bijective_iff bijective held, Roomy]
      exact ⟨fun room _ => room, fun roomy => roomy held⟩
  | some idx =>
      rw [set_of_held value held]
      refine iff_of_true bijective fun fresh => ?_
      rw [held] at fresh
      cases fresh

/-- Setting a name to either value leaves the other names alone exactly if there
is room for the name. -/
theorem others_set_iff (bijective : bitset.Bijective) :
    (∀ value other, other ≠ name →
      (bitset.set name value).isSet other = bitset.isSet other) ↔ bitset.Roomy name := by
  constructor
  · intro unchanged fresh
    rw [Option.eq_none_iff_forall_ne_some]
    intro taken held
    have back := (bijective _ _).mp held
    have other : taken ≠ name := by
      rintro rfl
      rw [fresh] at back
      cases back
    have overwritten : ∀ value, (bitset.set name value).isSet taken = value := by
      intro value
      have named := named_set value fresh
      rw [isSet_eq, valueOf, named.nameToIndex, AList.lookup_insert_ne other, back, named.values,
        Option.map_some, AList.lookup_insert, Option.getD_some, Option.getD_some]
    have isTrue := unchanged true taken other
    have isFalse := unchanged false taken other
    rw [overwritten] at isTrue isFalse
    exact absurd (isTrue.trans isFalse.symm) (by decide)
  · intro roomy value other different
    rw [isSet_eq, updates_set bijective roomy value other, if_neg different, ← isSet_eq]

theorem named_add (index : BitVec 32) (value : Bool) :
    Named bitset index name value (bitset.add index name value) :=
  ⟨rfl, rfl, rfl⟩

end Set

/-!
## Entries
-/

/-- A named entry has, or is given, an index that is not in use. -/
def RoomyEntry (bitset : EthtoolBitset) (entry : BitEntry) : Prop :=
  entry.name.isSome → bitset.names.lookup (entry.index.getD bitset.nextIndex) = none

/-- Names are distinct, and so are indices. -/
structure Distinct (entries : List BitEntry) : Prop where
  names : (entries.filterMap BitEntry.name).Nodup
  indices : (entries.filterMap BitEntry.index).Nodup

section Entries

variable {bitset : EthtoolBitset} {entry : BitEntry}

theorem named_recordBit {name : String} (isName : entry.name = some name) :
    Named bitset (entry.index.getD bitset.nextIndex) name entry.value (bitset.recordBit entry) := by
  obtain ⟨index, _, value⟩ := entry
  obtain rfl : _ = some name := isName
  exact ⟨rfl, rfl, rfl⟩

theorem recordBit_unnamed (unnamed : entry.name = none) :
    (bitset.recordBit entry).names = bitset.names ∧
      (bitset.recordBit entry).nameToIndex = bitset.nameToIndex := by
  obtain ⟨index, _, value⟩ := entry
  obtain rfl : _ = none := unnamed
  cases index
  · exact ⟨rfl, rfl⟩
  · exact ⟨rfl, rfl⟩

/-- An entry keeps the maps inverse, and enters no name but its own. -/
theorem bijective_recordBit (bijective : bitset.Bijective) (roomy : bitset.RoomyEntry entry)
    (fresh : ∀ name, entry.name = some name → bitset.nameToIndex.lookup name = none) :
    (bitset.recordBit entry).Bijective ∧
      ∀ name, entry.name ≠ some name →
        (bitset.recordBit entry).nameToIndex.lookup name = bitset.nameToIndex.lookup name := by
  cases isName : entry.name with
  | none =>
      obtain ⟨names, nameToIndex⟩ := @recordBit_unnamed bitset entry isName
      rw [Bijective, names, nameToIndex]
      exact ⟨bijective, fun _ _ => rfl⟩
  | some own =>
      have named := @named_recordBit bitset entry own isName
      have room := roomy (by rw [isName, Option.isSome_some])
      refine ⟨(named.bijective_iff bijective (fresh own isName)).mpr room, ?_⟩
      intro name other
      rw [named.nameToIndex, AList.lookup_insert_ne]
      rintro rfl
      exact other rfl

/-- Entries with distinct names keep the maps inverse. -/
theorem bijective_entries {entries : List BitEntry} (bijective : bitset.Bijective)
    (distinct : (entries.filterMap BitEntry.name).Nodup)
    (fresh : ∀ name ∈ entries.filterMap BitEntry.name, bitset.nameToIndex.lookup name = none)
    (roomy : AllAlong recordBit RoomyEntry bitset entries) :
    (entries.foldl recordBit bitset).Bijective := by
  induction entries generalizing bitset with
  | nil => exact bijective
  | cons entry rest ih =>
      have isFresh : ∀ name, entry.name = some name →
          bitset.nameToIndex.lookup name = none := fun name isName =>
        fresh name (mem_filterMap.mpr ⟨entry, mem_cons_self, isName⟩)
      obtain ⟨stillBijective, others⟩ := bijective_recordBit bijective roomy.1 isFresh
      cases isName : entry.name with
      | none =>
          rw [filterMap_cons_none isName] at distinct fresh
          refine ih stillBijective distinct ?_ roomy.2
          intro name later
          rw [others name (by rw [isName]; nofun)]
          exact fresh name later
      | some own =>
          rw [filterMap_cons_some isName] at distinct fresh
          obtain ⟨ownElsewhere, restDistinct⟩ := nodup_cons.mp distinct
          refine ih stillBijective restDistinct ?_ roomy.2
          intro name later
          have other : entry.name ≠ some name := by
            rw [isName]
            rintro ⟨⟩
            exact ownElsewhere later
          rw [others name other]
          exact fresh name (mem_cons_of_mem _ later)

/-- Entries that all have an index of their own are roomy, as the kernel sends them. -/
theorem roomy_of_indexed {entries : List BitEntry} (indexed : ∀ entry ∈ entries, entry.index.isSome)
    (distinct : (entries.filterMap BitEntry.index).Nodup)
    (unused : ∀ idx ∈ entries.filterMap BitEntry.index, bitset.names.lookup idx = none) :
    AllAlong recordBit RoomyEntry bitset entries := by
  induction entries generalizing bitset with
  | nil => trivial
  | cons entry rest ih =>
      obtain ⟨hasIndex, restIndexed⟩ := forall_mem_cons.mp indexed
      obtain ⟨idx, isIndex⟩ := Option.isSome_iff_exists.mp hasIndex
      rw [filterMap_cons_some isIndex] at distinct unused
      obtain ⟨elsewhere, restDistinct⟩ := nodup_cons.mp distinct
      obtain ⟨room, restUnused⟩ := forall_mem_cons.mp unused
      refine ⟨fun _ => ?_, ih restIndexed restDistinct ?_⟩
      · rw [isIndex]
        exact room
      · intro other later
        cases isName : entry.name with
        | none =>
            rw [(@recordBit_unnamed bitset entry isName).1]
            exact restUnused other later
        | some name =>
            rw [(@named_recordBit bitset entry name isName).names, isIndex, Option.getD_some,
              AList.lookup_insert_ne]
            · exact restUnused other later
            · rintro rfl
              exact elsewhere later

end Entries

/-!
## Payloads
-/

section Payload

variable (order : ByteOrder)

def bitEntries (data : List UInt8) : List BitEntry :=
  (attrIter order data).flatMap fun attr =>
    if attr.1 = BitsetAttr.BITS then
      (attrIter order attr.2).map fun bit => bitEntry order bit.2
    else
      []

/-- Two bitsets have the same names at the same indices. -/
def SameNames (first second : EthtoolBitset) : Prop :=
  first.names = second.names ∧ first.nameToIndex = second.nameToIndex

variable {first second : EthtoolBitset}

theorem SameNames.recordBit (same : SameNames first second) (entry : BitEntry) :
    SameNames (first.recordBit entry) (second.recordBit entry) := by
  cases isName : entry.name with
  | none =>
      obtain ⟨firstNames, firstIndex⟩ := @recordBit_unnamed first entry isName
      obtain ⟨secondNames, secondIndex⟩ := @recordBit_unnamed second entry isName
      rw [SameNames, firstNames, firstIndex, secondNames, secondIndex]
      exact same
  | some name =>
      have firstNamed := @named_recordBit first entry name isName
      have secondNamed := @named_recordBit second entry name isName
      have nextIndex : first.nextIndex = second.nextIndex := by
        rw [EthtoolBitset.nextIndex, EthtoolBitset.nextIndex, same.1]
      rw [SameNames, firstNamed.names, firstNamed.nameToIndex, secondNamed.names,
        secondNamed.nameToIndex, nextIndex, same.1, same.2]
      exact ⟨rfl, rfl⟩

theorem SameNames.entries (same : SameNames first second) (entries : List BitEntry) :
    SameNames (entries.foldl EthtoolBitset.recordBit first)
      (entries.foldl EthtoolBitset.recordBit second) := by
  induction entries generalizing first second with
  | nil => exact same
  | cons entry rest ih => exact ih (same.recordBit entry)

variable (bitset : EthtoolBitset)

theorem parseBits_eq (data : List UInt8) :
    bitset.parseBits order data =
      ((attrIter order data).map fun bit => bitEntry order bit.2).foldl recordBit bitset := by
  rw [parseBits, foldl_map]

theorem sameNames_foldl_parseAttr (attrs : List Attribute) (parsing : Parsing)
    (same : SameNames parsing.bitset first) :
    SameNames (attrs.foldl (parseAttr order) parsing).bitset
      ((attrs.flatMap fun attr =>
        if attr.1 = BitsetAttr.BITS then
          (attrIter order attr.2).map fun bit => bitEntry order bit.2
        else
          []).foldl recordBit first) := by
  induction attrs generalizing parsing first with
  | nil => exact same
  | cons attr rest ih =>
      rw [foldl_cons, flatMap_cons, foldl_append]
      apply ih
      obtain ⟨attrType, payload⟩ := attr
      by_cases isBits : attrType = BitsetAttr.BITS
      · subst isBits
        change SameNames (parsing.bitset.parseBits order payload) _
        rw [if_pos rfl, parseBits_eq]
        exact same.entries _
      · rw [if_neg isBits, parseAttr]
        dsimp only
        rw [if_neg isBits]
        split_ifs
        · exact same
        · exact same
        · exact same
        · exact same
        · exact same

theorem sameNames_compactBit (value : List UInt8)
    (mask : Option (List UInt8)) (isNomask : Bool) (bitIdx : Nat) :
    SameNames (compactBit value mask isNomask bitset bitIdx) bitset := by
  unfold compactBit
  cases bitAt value bitIdx with
  | none => exact ⟨rfl, rfl⟩
  | some bitValue =>
      dsimp only
      split_ifs
      · exact ⟨rfl, rfl⟩
      · exact ⟨rfl, rfl⟩

theorem sameNames_parseCompact (value : List UInt8) (mask : Option (List UInt8)) (isNomask : Bool) :
    SameNames (bitset.parseCompact value mask isNomask) bitset := by
  rw [parseCompact]
  induction List.range (min bitset.size.toNat (value.length * 8 % 2 ^ 32)) using
    List.reverseRecOn with
  | nil => exact ⟨rfl, rfl⟩
  | append_singleton start bitIdx ih =>
      rw [foldl_append, foldl_cons, foldl_nil]
      have last := sameNames_compactBit (start.foldl (compactBit value mask isNomask) bitset)
        value mask isNomask bitIdx
      exact ⟨last.1.trans ih.1, last.2.trans ih.2⟩

/-- What a payload names is what its list entries name. -/
theorem sameNames_parse (data : List UInt8) :
    SameNames (parse order data) ((bitEntries order data).foldl recordBit new) := by
  have loop := @sameNames_foldl_parseAttr order new (attrIter order data)
    { bitset := new, compactValue := none, compactMask := none, isNomask := false } ⟨rfl, rfl⟩
  rw [parse]
  split
  · obtain ⟨names, nameToIndex⟩ := sameNames_parseCompact
      ((attrIter order data).foldl (parseAttr order)
        { bitset := new, compactValue := none, compactMask := none, isNomask := false }).bitset
      _ _ _
    exact ⟨names.trans loop.1, nameToIndex.trans loop.2⟩
  · exact loop

end Payload

end EthtoolBitset

/-!
## Runs
-/

/-- A call that changes a bitset. -/
inductive Change where
  | set (name : String) (value : Bool)
  | add (index : BitVec 32) (name : String) (value : Bool)

namespace Change

open EthtoolBitset

def apply (bitset : EthtoolBitset) : Change → EthtoolBitset
  | set name value => bitset.set name value
  | add index name value => bitset.add index name value

/-- An index and a name that are added are new. -/
def Fresh (bitset : EthtoolBitset) : Change → Prop
  | set _ _ => True
  | add index name _ => bitset.names.lookup index = none ∧ bitset.nameToIndex.lookup name = none

/-- A new name that is set is given an index that is not in use. -/
def Roomy (bitset : EthtoolBitset) : Change → Prop
  | set name _ => bitset.Roomy name
  | add _ _ _ => True

instance (bitset : EthtoolBitset) : (change : Change) → Decidable (change.Roomy bitset)
  | set name _ => inferInstanceAs (Decidable (bitset.Roomy name))
  | add _ _ _ => instDecidableTrue

theorem bijective_apply {bitset : EthtoolBitset} {change : Change}
    (bijective : bitset.Bijective) (fresh : change.Fresh bitset) (roomy : change.Roomy bitset) :
    (change.apply bitset).Bijective := by
  cases change with
  | set name value => exact (bijective_set_iff bijective value).mpr roomy
  | add index name value =>
      exact ((named_add index value).bijective_iff bijective fresh.2).mpr fresh.1

theorem bijective_run {bitset : EthtoolBitset} {changes : List Change}
    (bijective : bitset.Bijective)
    (along : AllAlong Change.apply
      (fun bitset change => change.Fresh bitset ∧ change.Roomy bitset) bitset changes) :
    (changes.foldl Change.apply bitset).Bijective := by
  induction changes generalizing bitset with
  | nil => exact bijective
  | cons change rest ih => exact ih (bijective_apply bijective along.1.1 along.1.2) along.2

end Change

open EthtoolBitset in
theorem bijective_parse (order : ByteOrder) {data : List UInt8}
    (distinct : Distinct (bitEntries order data))
    (roomy : AllAlong recordBit RoomyEntry new (bitEntries order data)) :
    (parse order data).Bijective := by
  have bijective := @bijective_entries new _ Inverse.empty distinct.names (fun _ _ => rfl) roomy
  obtain ⟨names, nameToIndex⟩ := sameNames_parse order data
  rw [Bijective, names, nameToIndex]
  exact bijective

end Nlink.Ethtool
