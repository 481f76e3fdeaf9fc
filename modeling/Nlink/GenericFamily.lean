import Nlink.NetlinkRoute
import Nlink.NetlinkReply
import Nlink.WireguardDump

namespace Nlink.Generic

open Foundation Netlink List
open Wireguard (getU16Ne getU32Ne getString)

/-!
# Families of generic netlink

A family is found by its name.  The kernel's controller answers with the
family's number and groups as attributes, and the connection reads them.
-/

/-- The errors of a generic connection: its own, those of receiving, and those
of reading attributes. -/
inductive Error where
  | familyNotFound (name : String)
  | netlink (error : Netlink.Error)
  | attribute (error : Wireguard.Error)

def Error.missingFamilyId : Error :=
  .netlink (.invalidMessage "missing family ID")

def CtrlAttr.FamilyId : Nat := 1
def CtrlAttr.FamilyName : Nat := 2
def CtrlAttr.Version : Nat := 3
def CtrlAttr.HdrSize : Nat := 4
def CtrlAttr.MaxAttr : Nat := 5
def CtrlAttr.Ops : Nat := 6
def CtrlAttr.McastGroups : Nat := 7

def CtrlAttrMcastGrp.Name : Nat := 1
def CtrlAttrMcastGrp.Id : Nat := 2

/-- What the connection knows of a family. -/
structure FamilyInfo where
  id : BitVec 16
  version : BitVec 8
  hdrSize : BitVec 32
  maxAttr : BitVec 32
  mcastGroups : HashMap String (BitVec 32)

section Reading

variable (order : ByteOrder)

/-- A reader's result among the connection's errors. -/
def ofAttribute (result : Except Wireguard.Error α) : Except Error α :=
  result.mapError .attribute

/-- The name and the number of a group, as far as they have been read. -/
structure GroupParts where
  name : Option String
  grpId : Option (BitVec 32)

def groupAttr (parts : GroupParts) (attr : Nat × List UInt8) : Except Error GroupParts :=
  if attr.1 = CtrlAttrMcastGrp.Name then do
    let name ← ofAttribute (getString attr.2)
    return { parts with name := some name }
  else if attr.1 = CtrlAttrMcastGrp.Id then do
    let grpId ← ofAttribute (getU32Ne order attr.2)
    return { parts with grpId := some grpId }
  else
    .ok parts

/-- One group; it is inserted if it has a name and a number. -/
def mcastGroup (groups : HashMap String (BitVec 32)) (group : Nat × List UInt8) :
    Except Error (HashMap String (BitVec 32)) := do
  let parts ← (attrIter order group.2).foldlM (groupAttr order)
    { name := none, grpId := none }
  match parts.name, parts.grpId with
  | some name, some id => return groups.insert name id
  | _, _ => return groups

/-- `parse_mcast_groups`. -/
def parseMcastGroups (data : List UInt8) : Except Error (HashMap String (BitVec 32)) :=
  (attrIter order data).foldlM (mcastGroup order) ∅

/-- What has been read of a family. -/
structure FamilyParts where
  id : Option (BitVec 16)
  version : BitVec 8
  hdrSize : BitVec 32
  maxAttr : BitVec 32
  mcastGroups : HashMap String (BitVec 32)

/-- Before any attribute has been read. -/
def FamilyParts.empty : FamilyParts where
  id := none
  version := 0
  hdrSize := 0
  maxAttr := 0
  mcastGroups := ∅

/-- One attribute of a family; the version keeps its low byte. -/
def familyAttr (parts : FamilyParts) (attr : Nat × List UInt8) : Except Error FamilyParts :=
  if attr.1 = CtrlAttr.FamilyId then do
    let id ← ofAttribute (getU16Ne order attr.2)
    return { parts with id := some id }
  else if attr.1 = CtrlAttr.Version then do
    let version ← ofAttribute (getU32Ne order attr.2)
    return { parts with version := version.setWidth 8 }
  else if attr.1 = CtrlAttr.HdrSize then do
    let hdrSize ← ofAttribute (getU32Ne order attr.2)
    return { parts with hdrSize := hdrSize }
  else if attr.1 = CtrlAttr.MaxAttr then do
    let maxAttr ← ofAttribute (getU32Ne order attr.2)
    return { parts with maxAttr := maxAttr }
  else if attr.1 = CtrlAttr.McastGroups then do
    let mcastGroups ← parseMcastGroups order attr.2
    return { parts with mcastGroups := mcastGroups }
  else
    .ok parts

/-- The family that the parts spell; its number is required. -/
def FamilyParts.assemble (parts : FamilyParts) : Except Error FamilyInfo :=
  match parts.id with
  | some id =>
      .ok
        { id := id
          version := parts.version
          hdrSize := parts.hdrSize
          maxAttr := parts.maxAttr
          mcastGroups := parts.mcastGroups }
  | none => .error .missingFamilyId

/-- `parse_family_attrs`. -/
def parseFamilyAttrs (data : List UInt8) : Except Error FamilyInfo := do
  let parts ← (attrIter order data).foldlM (familyAttr order)
    FamilyParts.empty
  parts.assemble

/-- The loop of `parse_family_response` over the messages of a datagram. -/
def familyFromMessages (seq : Nat) (name : String) :
    List (Except Netlink.Error Message) → Except Error FamilyInfo
  | [] => .error (.familyNotFound name)
  | .error error :: _ => .error (.netlink error)
  | .ok (header, payload) :: rest =>
      if header.nlmsgSeq ≠ seq then
        familyFromMessages seq name rest
      else if header.isError then
        match NlMsgError.fromBytes order payload with
        | .error error => .error (.netlink error)
        | .ok err =>
            if err.isAck then
              familyFromMessages seq name rest
            else if err.errno = -ENOENT then
              .error (.familyNotFound name)
            else
              .error (.netlink (err.intoError order payload))
      else if header.isDone then
        familyFromMessages seq name rest
      else if payload.length < GENL_HDRLEN then
        .error (.netlink (.invalidMessage "GENL header too short"))
      else
        parseFamilyAttrs order (payload.drop GENL_HDRLEN)

/-- `parse_family_response`. -/
def parseFamilyResponse (data : List UInt8) (seq : Nat) (name : String) : Except Error FamilyInfo :=
  familyFromMessages order seq name (messageIter order data)

end Reading

/-- The size of the kernel's names of families and groups. -/
def GENL_NAMSIZ : Nat := 16

/-- A name that the kernel keeps: it is short and has no NUL. -/
structure GenlName where
  text : String
  short : (asBytes text).length < GENL_NAMSIZ
  noNul : ∀ byte ∈ asBytes text, byte ≠ 0

/-- A family that is registered in the kernel. -/
structure Family where
  name : GenlName
  id : BitVec 16
  version : BitVec 8
  hdrSize : BitVec 32
  maxAttr : BitVec 32
  /-- The nest that describes the family's commands. -/
  ops : List UInt8
  mcgrps : List (GenlName × BitVec 32)
  opsShort : ops.length + NLA_HDRLEN ≤ 65535
  mcgrpsFew : mcgrps.length < 256

namespace Family

variable (order : ByteOrder)

/-- What there is to know of a family. -/
def info (family : Family) : FamilyInfo where
  id := family.id
  version := family.version
  hdrSize := family.hdrSize
  maxAttr := family.maxAttr
  mcastGroups := HashMap.collect (family.mcgrps.map fun group => (group.1.text, group.2))

def nameBytes (name : GenlName) : List UInt8 :=
  asBytes name.text ++ [0]

def groupAttrs (group : GenlName × BitVec 32) : List Attribute :=
  [(CtrlAttrMcastGrp.Id, order.toBytes 4 group.2.toNat), (CtrlAttrMcastGrp.Name, nameBytes group.1)]

def mcastAttrs (groups : List (GenlName × BitVec 32)) : List Attribute :=
  groups.zipIdx.map fun group => (group.2 + 1, encodeAll order (groupAttrs order group.1))

/-- The nests that the controller leaves out where they are empty. -/
def nestAttrs (family : Family) : List Attribute :=
  (if family.ops = [] then [] else [(CtrlAttr.Ops, family.ops)]) ++
    if family.mcgrps = [] then
      []
    else
      [(CtrlAttr.McastGroups, encodeAll order (mcastAttrs order family.mcgrps))]

/-- The attributes with which the controller describes a family. -/
def attrs (family : Family) : List Attribute :=
  [(CtrlAttr.FamilyName, nameBytes family.name),
    (CtrlAttr.FamilyId, order.toBytes 2 family.id.toNat),
    (CtrlAttr.Version, order.toBytes 4 family.version.toNat),
    (CtrlAttr.HdrSize, order.toBytes 4 family.hdrSize.toNat),
    (CtrlAttr.MaxAttr, order.toBytes 4 family.maxAttr.toNat)] ++
    family.nestAttrs order

theorem nameBytes_length (name : GenlName) : (nameBytes name).length ≤ GENL_NAMSIZ := by
  have short := name.short
  simp only [nameBytes, length_append, length_singleton]
  omega

theorem attrIter_groupAttrs (group : GenlName × BitVec 32) :
    attrIter order (encodeAll order (groupAttrs order group)) = groupAttrs order group := by
  have named := nameBytes_length group.1
  rw [GENL_NAMSIZ] at named
  apply attrIter_encodeAll_plain
  · simp [groupAttrs, CtrlAttrMcastGrp.Id, CtrlAttrMcastGrp.Name, NLA_F_NET_BYTEORDER]
  · simp only [groupAttrs, NLA_HDRLEN, forall_mem_cons, ByteOrder.toBytes_length]
    refine ⟨by decide, by omega, ?_⟩
    simp

theorem mcastGroup_groupAttrs (groups : HashMap String (BitVec 32)) (number : Nat)
    (group : GenlName × BitVec 32) :
    mcastGroup order groups (number, encodeAll order (groupAttrs order group)) =
      .ok (groups.insert group.1.text group.2) := by
  have isName : getString (nameBytes group.1) = .ok group.1.text :=
    Wireguard.getString_asBytes group.1.noNul
  have isId : getU32Ne order (order.toBytes 4 group.2.toNat) = .ok group.2 :=
    Wireguard.getU32Ne_toBytes order group.2
  rw [mcastGroup, attrIter_groupAttrs]
  simp [groupAttrs, groupAttr, CtrlAttrMcastGrp.Id, CtrlAttrMcastGrp.Name, isName, isId,
    ofAttribute, Except.mapError, bind, Except.bind, pure, Except.pure]

theorem groupAttrs_length_le (group : GenlName × BitVec 32) :
    (encodeAll order (groupAttrs order group)).length ≤ 46 := by
  have named := nameBytes_length group.1
  rw [GENL_NAMSIZ] at named
  have short : ∀ attr ∈ groupAttrs order group, attr.2.length ≤ 16 := by
    simp only [groupAttrs, forall_mem_cons, ByteOrder.toBytes_length]
    exact ⟨by decide, named, by simp⟩
  exact encodeAll_length_le order short

theorem mcastAttrs_short (groups : List (GenlName × BitVec 32)) :
    ∀ attr ∈ mcastAttrs order groups, attr.2.length ≤ 46 := by
  intro attr member
  obtain ⟨group, _, rfl⟩ := mem_map.mp member
  exact groupAttrs_length_le order group.1

variable {groups : List (GenlName × BitVec 32)}

theorem mcastAttrs_plain (few : groups.length < 256) :
    ∀ attr ∈ mcastAttrs order groups, attr.1 < NLA_F_NET_BYTEORDER := by
  intro attr member
  obtain ⟨⟨group, index⟩, numbered, rfl⟩ := mem_map.mp member
  have within := snd_lt_of_mem_zipIdx numbered
  rw [NLA_F_NET_BYTEORDER]
  dsimp only at within ⊢
  omega

theorem attrIter_mcastAttrs (few : groups.length < 256) :
    attrIter order (encodeAll order (mcastAttrs order groups)) = mcastAttrs order groups := by
  refine attrIter_encodeAll_plain order (mcastAttrs_plain order few) ?_
  intro attr member
  have short := mcastAttrs_short order groups attr member
  rw [NLA_HDRLEN]
  omega

theorem foldlM_mcastGroup (pairs : List ((GenlName × BitVec 32) × Nat))
    (groups : HashMap String (BitVec 32)) :
    (pairs.map fun pair =>
        (pair.2 + 1, encodeAll order (groupAttrs order pair.1))).foldlM
        (mcastGroup order) groups =
      .ok ((pairs.map Prod.fst).foldl
        (fun groups group => groups.insert group.1.text group.2) groups) := by
  induction pairs generalizing groups with
  | nil => rfl
  | cons pair rest ih =>
      rw [map_cons, foldlM_cons, mcastGroup_groupAttrs]
      exact ih _

theorem parseMcastGroups_mcastAttrs (few : groups.length < 256) :
    parseMcastGroups order (encodeAll order (mcastAttrs order groups)) =
      .ok (HashMap.collect (groups.map fun group => (group.1.text, group.2))) := by
  rw [parseMcastGroups, attrIter_mcastAttrs order few, mcastAttrs,
    foldlM_mcastGroup, zipIdx_map_fst, HashMap.collect, foldl_map]

variable (family : Family)

theorem mcastAttrs_length_le :
    (encodeAll order (mcastAttrs order family.mcgrps)).length ≤ 13515 := by
  have few := family.mcgrpsFew
  have bound := encodeAll_length_le order (mcastAttrs_short order family.mcgrps)
  rw [mcastAttrs, length_map, length_zipIdx] at bound
  rw [mcastAttrs]
  omega

theorem forall_mem_optional {omitted : Prop} [Decidable omitted] {attr : Attribute}
    {property : Attribute → Prop} (holds : property attr) :
    ∀ other ∈ (if omitted then [] else [attr]), property other := by
  split
  · simp
  · simpa using holds

theorem attrs_fit (family : Family) : ∀ attr ∈ family.attrs order,
      attr.1 < NLA_F_NET_BYTEORDER ∧ NLA_HDRLEN + attr.2.length ≤ 65535 := by
  have named := nameBytes_length family.name
  have opsShort := family.opsShort
  have groupsShort := family.mcastAttrs_length_le order
  rw [GENL_NAMSIZ] at named
  rw [NLA_HDRLEN] at opsShort
  have opsPlain : CtrlAttr.Ops < NLA_F_NET_BYTEORDER := by decide
  have groupsPlain : CtrlAttr.McastGroups < NLA_F_NET_BYTEORDER := by decide
  rw [attrs, nestAttrs, forall_mem_append, forall_mem_append]
  refine ⟨?_, forall_mem_optional ⟨opsPlain, ?_⟩, forall_mem_optional ⟨groupsPlain, ?_⟩⟩
  · simp only [forall_mem_cons, ByteOrder.toBytes_length, NLA_HDRLEN]
    refine ⟨⟨by decide, by omega⟩, by decide, by decide, by decide, by decide, ?_⟩
    simp
  · rw [NLA_HDRLEN]
    dsimp only
    omega
  · rw [NLA_HDRLEN]
    dsimp only
    omega

theorem attrIter_attrs : attrIter order (encodeAll order (family.attrs order)) =
      family.attrs order :=
  attrIter_encodeAll_plain order (fun attr member => (family.attrs_fit order attr member).1)
    (fun attr member => (family.attrs_fit order attr member).2)

theorem foldlM_nestAttrs (parts : FamilyParts) (noGroups : parts.mcastGroups = ∅) :
    (family.nestAttrs order).foldlM (familyAttr order) parts =
      .ok { parts with mcastGroups := family.info.mcastGroups } := by
  have isGroups := parseMcastGroups_mcastAttrs order family.mcgrpsFew
  have readsGroups :
      (if family.mcgrps = [] then
          []
        else
          [(CtrlAttr.McastGroups, encodeAll order (mcastAttrs order family.mcgrps))]).foldlM
          (familyAttr order) parts =
        .ok { parts with mcastGroups := family.info.mcastGroups } := by
    split
    · rename_i empty
      rw [info, empty]
      change Except.ok parts = .ok { parts with mcastGroups := ∅ }
      rw [← noGroups]
    · simp [familyAttr, CtrlAttr.McastGroups, CtrlAttr.FamilyId, CtrlAttr.Version, CtrlAttr.HdrSize,
        CtrlAttr.MaxAttr, isGroups, info, bind, Except.bind, pure, Except.pure]
  rw [nestAttrs, foldlM_append]
  split
  · exact readsGroups
  · exact readsGroups

theorem parseFamilyAttrs_attrs :
    parseFamilyAttrs order (encodeAll order (family.attrs order)) = .ok family.info := by
  have isId : getU16Ne order (order.toBytes 2 family.id.toNat) = .ok family.id :=
    Wireguard.getU16Ne_toBytes order family.id
  have isVersion : getU32Ne order (order.toBytes 4 family.version.toNat) =
      .ok (family.version.setWidth 32) := by
    have read := Wireguard.getU32Ne_toBytes order (family.version.setWidth 32)
    rwa [BitVec.toNat_setWidth_of_le (by decide)] at read
  have isHdrSize : getU32Ne order (order.toBytes 4 family.hdrSize.toNat) = .ok family.hdrSize :=
    Wireguard.getU32Ne_toBytes order family.hdrSize
  have isMaxAttr : getU32Ne order (order.toBytes 4 family.maxAttr.toNat) = .ok family.maxAttr :=
    Wireguard.getU32Ne_toBytes order family.maxAttr
  have lowByte : (family.version.setWidth 32).setWidth 8 = family.version := by simp
  have fixed :
      [(CtrlAttr.FamilyName, nameBytes family.name),
          (CtrlAttr.FamilyId, order.toBytes 2 family.id.toNat),
          (CtrlAttr.Version, order.toBytes 4 family.version.toNat),
          (CtrlAttr.HdrSize, order.toBytes 4 family.hdrSize.toNat),
          (CtrlAttr.MaxAttr, order.toBytes 4 family.maxAttr.toNat)].foldlM
          (familyAttr order) FamilyParts.empty =
        .ok
          { id := some family.id
            version := family.version
            hdrSize := family.hdrSize
            maxAttr := family.maxAttr
            mcastGroups := ∅ } := by
    simp [familyAttr, ofAttribute, CtrlAttr.FamilyName, CtrlAttr.FamilyId, CtrlAttr.Version,
      CtrlAttr.HdrSize, CtrlAttr.MaxAttr, CtrlAttr.McastGroups, isId, isVersion, isHdrSize,
      isMaxAttr, lowByte, Except.mapError, FamilyParts.empty, bind, Except.bind, pure, Except.pure]
  rw [parseFamilyAttrs, attrIter_attrs, attrs, foldlM_append, fixed]
  change (List.foldlM (familyAttr order) _ _ >>= _) = _
  rw [foldlM_nestAttrs order family _ rfl]
  rfl

end Family

end Nlink.Generic
