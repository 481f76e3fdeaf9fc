import Nlink.NetlinkAttrCut
import Nlink.NftablesApply

namespace Nlink.Nftables

open Foundation Netlink Attrs
open List hiding set

/-!
# Set elements on the wire

All elements of an operation are nested into one attribute of one message.  The
parser of a dump reads the same nests.  Each element takes room for three headers
and for its padded key, and what the parser finds in bytes never takes more room
than there are bytes.
-/

def NFT_MSG_NEWSETELEM : Nat := 12
def NFT_MSG_DELSETELEM : Nat := 14
def NFTA_SET_ELEM_LIST_TABLE : Nat := 1
def NFTA_SET_ELEM_LIST_SET : Nat := 2
def NFTA_SET_ELEM_LIST_ELEMENTS : Nat := 3
def NFTA_SET_ELEM_KEY : Nat := 1

section Writing

variable (order : ByteOrder)

/-- One element: its key in three nests. -/
def appendSetElement (builder : MessageBuilder) (element : SetElement) : MessageBuilder :=
  builder.nest order (NFTA_LIST_ELEM ||| NLA_F_NESTED) fun builder =>
    builder.nest order (NFTA_SET_ELEM_KEY ||| NLA_F_NESTED) fun builder =>
      builder.appendAttr order NFTA_DATA_VALUE element.key

/-- The header, the names and the nest of all elements. -/
def appendSetElements (builder : MessageBuilder) (table set : String) (family : Family)
    (elements : List SetElement) : MessageBuilder :=
  (((builder.appendBytes (nfGenMsg family)).appendAttrStr order NFTA_SET_ELEM_LIST_TABLE
    table).appendAttrStr order NFTA_SET_ELEM_LIST_SET set).nest order
    (NFTA_SET_ELEM_LIST_ELEMENTS ||| NLA_F_NESTED) fun builder =>
      elements.foldl (appendSetElement order) builder

/-- The message that `add_set_elements` pushes. -/
def addSetElementsMessage (table set : String) (family : Family) (elements : List SetElement) :
    List UInt8 :=
  (appendSetElements order
    (.new order (nftMsgType NFT_MSG_NEWSETELEM) (NLM_F_REQUEST ||| NLM_F_CREATE)) table set family
    elements).finish order

/-- The message that `del_set_elements` pushes. -/
def delSetElementsMessage (table set : String) (family : Family) (elements : List SetElement) :
    List UInt8 :=
  (appendSetElements order (.new order (nftMsgType NFT_MSG_DELSETELEM) NLM_F_REQUEST) table set
    family elements).finish order

/-- The messages of a diff's set elements, as `apply` pushes them. -/
def elementMessages (diff : NftablesDiff) : List (List UInt8) :=
  (diff.setElementsToRemove.map fun (table, family, set, elements) =>
    delSetElementsMessage order table set family elements) ++
  diff.setElementsToAdd.map fun (table, family, set, elements) =>
    addSetElementsMessage order table set family elements

end Writing

section Reading

variable (order : ByteOrder)

/-- The first value of the first key that has one. -/
def parseSetElemKey (elem : List UInt8) : Option (List UInt8) :=
  (attrIter order elem).findSome? fun attr =>
    if attr.1 &&& 0x7FFF = NFTA_SET_ELEM_KEY then
      (attrIter order attr.2).findSome? fun inner =>
        if inner.1 &&& 0x7FFF = NFTA_DATA_VALUE then some inner.2 else none
    else
      none

/-- The element of an attribute of the list, if it has a key. -/
def parseListElem (attr : Attribute) : Option SetElement :=
  if attr.1 &&& 0x7FFF ≠ NFTA_LIST_ELEM then
    none
  else
    (parseSetElemKey order attr.2).map SetElement.mk

def parseElementList (attr : Attribute) : List SetElement :=
  if attr.1 &&& 0x7FFF ≠ NFTA_SET_ELEM_LIST_ELEMENTS then
    []
  else
    (attrIter order attr.2).filterMap (parseListElem order)

/-- The elements of one message of a dump, behind those of the messages before. -/
def parseSetElements (out : List SetElement) (data : List UInt8) : List SetElement :=
  (attrIter order data).foldl (fun out attr => out ++ parseElementList order attr) out

/-- A message behind its two headers. -/
def bodyAfterNfgenmsg (message : List UInt8) : List UInt8 :=
  message.drop 20

def readSetElements (messages : List (List UInt8)) : List SetElement :=
  messages.foldl (fun out message => parseSetElements order out (bodyAfterNfgenmsg message)) []

end Reading

/-- The bytes that an element takes in the nest of all elements. -/
def SetElement.wireSize (element : SetElement) : Nat :=
  12 + nlaAlign element.key.length

/-- The bytes that elements take. -/
def wireSize (elements : List SetElement) : Nat :=
  (elements.map SetElement.wireSize).sum

theorem wireSize_append (first second : List SetElement) :
    wireSize (first ++ second) = wireSize first + wireSize second := by
  rw [wireSize, map_append, List.sum_append]
  rfl

section Written

variable (order : ByteOrder)

def SetElement.attr (element : SetElement) : Attribute :=
  (NFTA_LIST_ELEM ||| NLA_F_NESTED, encodeAll order [(NFTA_SET_ELEM_KEY ||| NLA_F_NESTED,
      encodeAll order [(NFTA_DATA_VALUE, element.key)])])

def elementsBody (elements : List SetElement) : List UInt8 :=
  encodeAll order (elements.map (SetElement.attr order))

def messageAttrs (table set : String) (elements : List SetElement) : List Attribute :=
  [(NFTA_SET_ELEM_LIST_TABLE, asBytes table ++ [0]), (NFTA_SET_ELEM_LIST_SET, asBytes set ++ [0]),
    (NFTA_SET_ELEM_LIST_ELEMENTS ||| NLA_F_NESTED, elementsBody order elements)]

theorem appends_setElement (element : SetElement) :
    Appends (fun builder => appendSetElement order builder element)
      (encodeAll order [element.attr order]) :=
  appends_nestAll order (NFTA_LIST_ELEM ||| NLA_F_NESTED)
    (appends_nestAll order (NFTA_SET_ELEM_KEY ||| NLA_F_NESTED)
      (appends_one order NFTA_DATA_VALUE element.key))

theorem appends_elements (elements : List SetElement) :
    Appends (fun builder => elements.foldl (appendSetElement order) builder)
      (elementsBody order elements) := by
  have appends := Appends.foldl (appends_setElement order) elements
  have isBody : elements.flatMap (fun element => encodeAll order [element.attr order]) =
      elementsBody order elements := by
    rw [elementsBody, encodeAll, flatMap_map]
    exact flatMap_congr fun element _ => flatMap_singleton _ _
  rw [isBody] at appends
  exact appends

theorem bodyAfterNfgenmsg_message (msgType flags : Nat) (table set : String) (family : Family)
    (elements : List SetElement) :
    bodyAfterNfgenmsg
        ((appendSetElements order (.new order msgType flags) table set family elements).finish
          order) =
      encodeAll order (messageAttrs order table set elements) := by
  have isHeader :
      ((MessageBuilder.new order msgType flags).appendBytes (nfGenMsg family)).buf.length = 20 := by
    simp [MessageBuilder.new, MessageBuilder.appendBytes, NlMsgHdr.asBytes, nfGenMsg, padding,
      nlaAlign]
  have names := Appends.compAll order
    (appends_one order NFTA_SET_ELEM_LIST_TABLE (asBytes table ++ [0]))
    (appends_one order NFTA_SET_ELEM_LIST_SET (asBytes set ++ [0]))
  have writes := Appends.compAll order names
    (appends_nestAll order (NFTA_SET_ELEM_LIST_ELEMENTS ||| NLA_F_NESTED)
      (appends_elements order elements))
  have shape := writes.appended _ (show 4 ∣ _ from isHeader ▸ (by decide : 4 ∣ 20))
  have isBuf : (appendSetElements order (.new order msgType flags) table set family elements).buf =
      ((MessageBuilder.new order msgType flags).appendBytes (nfGenMsg family)).buf ++
        encodeAll order (messageAttrs order table set elements) := shape
  rw [bodyAfterNfgenmsg, MessageBuilder.finish, isBuf, show (20 : Nat) = 4 + 16 from rfl,
    ← drop_drop, drop_left' (by simp), drop_drop]
  exact drop_left' isHeader

end Written

section Sizes

variable (order : ByteOrder)

theorem length_encodeAll_singleton (attr : Attribute) :
    (encodeAll order [attr]).length = 4 + nlaAlign attr.2.length := by
  rw [encodeAll, flatMap_singleton, attrBytes_length, nlaAlign, nlaAlign]
  omega

theorem dvd_length_encodeAll (attrs : List Attribute) : 4 ∣ (encodeAll order attrs).length := by
  induction attrs with
  | nil => exact Nat.dvd_zero 4
  | cons attr rest ih =>
      rw [encodeAll] at ih
      rw [encodeAll, flatMap_cons, length_append, attrBytes_length]
      exact Nat.dvd_add (dvd_nlaAlign _) ih

theorem SetElement.length_attr (element : SetElement) :
    (element.attr order).2.length = 8 + nlaAlign element.key.length := by
  have inner := length_encodeAll_singleton order (NFTA_DATA_VALUE, element.key)
  have outer := length_encodeAll_singleton order (NFTA_SET_ELEM_KEY ||| NLA_F_NESTED,
    encodeAll order [(NFTA_DATA_VALUE, element.key)])
  have aligned := nlaAlign_of_dvd (dvd_length_encodeAll order [(NFTA_DATA_VALUE, element.key)])
  dsimp only at inner outer
  rw [aligned, inner] at outer
  rw [SetElement.attr, outer]
  omega

theorem dvd_wireSize (elements : List SetElement) : 4 ∣ wireSize elements := by
  induction elements with
  | nil => exact Nat.dvd_zero 4
  | cons element rest ih =>
      have aligned := dvd_nlaAlign element.key.length
      rw [wireSize] at ih
      rw [wireSize, map_cons, sum_cons, SetElement.wireSize]
      omega

theorem length_elementsBody (elements : List SetElement) :
    (elementsBody order elements).length = wireSize elements := by
  induction elements with
  | nil => rfl
  | cons element rest ih =>
      have isLength := element.length_attr order
      have aligned := dvd_nlaAlign element.key.length
      rw [elementsBody, encodeAll] at ih
      rw [elementsBody, encodeAll, map_cons, flatMap_cons, length_append, ih,
        attrBytes_length, isLength, wireSize, wireSize, map_cons, sum_cons,
        SetElement.wireSize, nlaAlign_of_dvd (by omega)]
      omega

end Sizes

/-!
## What is read takes its room
-/

section Found

variable (order : ByteOrder)

/-- The attributes of bytes take no more room than there is. -/
theorem sum_attrIter_le (data : List UInt8) :
    ((attrIter order data).map fun attr => nlaAlign (NLA_HDRLEN + attr.2.length)).sum ≤
      nlaAlign data.length := by
  induction size : data.length using Nat.strong_induction_on generalizing data with
  | _ size ih =>
      subst size
      cases next : nextAttr order data with
      | none =>
          rw [attrIter_of_none next]
          exact Nat.zero_le _
      | some step =>
          obtain ⟨attr, rest⟩ := step
          have later := ih rest.length (nextAttr_shrinks next) rest rfl
          have payloadInside := (nextAttr_payload_le order next).2
          have isRest : rest.length = data.length - nlaAlign (NLA_HDRLEN + attr.2.length) := by
            rw [nextAttr_rest order next, length_drop]
          rw [attrIter_of_next next, map_cons, sum_cons]
          rw [isRest] at later
          simp only [nlaAlign] at *
          omega

theorem key_inside {elem key : List UInt8} (found : parseSetElemKey order elem = some key) :
    8 + key.length ≤ elem.length := by
  rw [parseSetElemKey] at found
  obtain ⟨attr, isAttr, found⟩ := exists_of_findSome?_eq_some found
  split at found
  · obtain ⟨inner, isInner, found⟩ := exists_of_findSome?_eq_some found
    split at found
    · cases found
      have attrInside := (attrIter_payload_le order isAttr).2
      have innerInside := (attrIter_payload_le order isInner).2
      rw [NLA_HDRLEN] at attrInside innerInside
      omega
    · cases found
  · cases found

/-- An element takes no more room than the attribute that it is read from. -/
theorem wireSize_listElem {attr : Attribute} {element : SetElement}
    (found : parseListElem order attr = some element) :
    element.wireSize ≤ nlaAlign (NLA_HDRLEN + attr.2.length) := by
  rw [parseListElem] at found
  split at found
  · cases found
  · obtain ⟨key, isKey, rfl⟩ := Option.map_eq_some_iff.mp found
    have inside := key_inside order isKey
    rw [SetElement.wireSize, NLA_HDRLEN]
    simp only [nlaAlign]
    omega

theorem wireSize_filterMap (attrs : List Attribute) :
    wireSize (attrs.filterMap (parseListElem order)) ≤
      (attrs.map fun attr => nlaAlign (NLA_HDRLEN + attr.2.length)).sum := by
  induction attrs with
  | nil => exact Nat.le_refl _
  | cons attr rest ih =>
      rw [map_cons, sum_cons]
      cases found : parseListElem order attr with
      | none =>
          rw [filterMap_cons_none found]
          exact Nat.le_trans ih (Nat.le_add_left _ _)
      | some element =>
          rw [filterMap_cons_some found, wireSize, map_cons, sum_cons]
          exact Nat.add_le_add (wireSize_listElem order found) ih

theorem wireSize_elementList (attr : Attribute) :
    wireSize (parseElementList order attr) ≤ nlaAlign (NLA_HDRLEN + attr.2.length) := by
  rw [parseElementList]
  split
  · exact Nat.zero_le _
  · have inside := Nat.le_trans (wireSize_filterMap order (attrIter order attr.2))
      (sum_attrIter_le order attr.2)
    rw [NLA_HDRLEN]
    simp only [nlaAlign] at inside ⊢
    omega

theorem parseSetElements_eq (out : List SetElement) (data : List UInt8) :
    parseSetElements order out data =
      out ++ (attrIter order data).flatMap (parseElementList order) := by
  rw [parseSetElements]
  generalize attrIter order data = attrs
  induction attrs generalizing out with
  | nil => exact (List.append_nil out).symm
  | cons attr rest ih => rw [foldl_cons, ih, flatMap_cons, List.append_assoc]

/-- The elements that are found in bytes take no more room than there is. -/
theorem wireSize_found (data : List UInt8) :
    wireSize ((attrIter order data).flatMap (parseElementList order)) ≤ nlaAlign data.length := by
  refine Nat.le_trans ?_ (sum_attrIter_le order data)
  generalize attrIter order data = attrs
  induction attrs with
  | nil => exact Nat.le_refl _
  | cons attr rest ih =>
      rw [flatMap_cons, wireSize_append, map_cons, sum_cons]
      exact Nat.add_le_add (wireSize_elementList order attr) ih

end Found

/-!
## What is written is read back
-/

section Agreement

variable {order : ByteOrder} {elements : List SetElement}

def KeysFit (elements : List SetElement) : Prop :=
  ∀ element ∈ elements, element.key.length ≤ 64

instance (elements : List SetElement) : Decidable (KeysFit elements) :=
  inferInstanceAs (Decidable (∀ element ∈ elements, element.key.length ≤ 64))

theorem SetElement.attr_fits {element : SetElement} (keyFits : element.key.length ≤ 64) :
    (element.attr order).Fits := by
  refine ⟨show NFTA_LIST_ELEM ||| NLA_F_NESTED < 256 ^ 2 by decide, ?_⟩
  rw [element.length_attr order, NLA_HDRLEN]
  simp only [nlaAlign]
  omega

theorem SetElement.dvd_length_attr (element : SetElement) : 4 ∣ (element.attr order).2.length :=
  dvd_length_encodeAll order _

theorem parseSetElemKey_nests {key : List UInt8} (keyFits : key.length ≤ 64) :
    parseSetElemKey order
        (encodeAll order [(NFTA_SET_ELEM_KEY ||| NLA_F_NESTED,
          encodeAll order [(NFTA_DATA_VALUE, key)])]) =
      some key := by
  have isLength : (encodeAll order [(NFTA_DATA_VALUE, key)]).length = 4 + nlaAlign key.length :=
    length_encodeAll_singleton order _
  have keyAttr : Attribute.Fits (NFTA_DATA_VALUE, key) := by
    refine ⟨show NFTA_DATA_VALUE < 256 ^ 2 by decide, ?_⟩
    change 4 + key.length ≤ 65535
    omega
  have keyNest : Attribute.Fits (NFTA_SET_ELEM_KEY ||| NLA_F_NESTED,
      encodeAll order [(NFTA_DATA_VALUE, key)]) := by
    refine ⟨show NFTA_SET_ELEM_KEY ||| NLA_F_NESTED < 256 ^ 2 by decide, ?_⟩
    change 4 + (encodeAll order [(NFTA_DATA_VALUE, key)]).length ≤ 65535
    rw [isLength, nlaAlign]
    omega
  have inner : attrIter order (encodeAll order [(NFTA_DATA_VALUE, key)]) =
      [(NFTA_DATA_VALUE, key)] :=
    attrIter_encodeAll order (forall_mem_singleton.mpr keyAttr)
  have outer : attrIter order (encodeAll order [(NFTA_SET_ELEM_KEY ||| NLA_F_NESTED,
      encodeAll order [(NFTA_DATA_VALUE, key)])]) =
      [(NFTA_SET_ELEM_KEY, encodeAll order [(NFTA_DATA_VALUE, key)])] := by
    rw [attrIter_encodeAll order (forall_mem_singleton.mpr keyNest), map_singleton,
      Attribute.masked_nested (by decide)]
  rw [parseSetElemKey, outer, findSome?_singleton,
    if_pos (show NFTA_SET_ELEM_KEY &&& 0x7FFF = NFTA_SET_ELEM_KEY by decide), inner,
    findSome?_singleton, if_pos (show NFTA_DATA_VALUE &&& 0x7FFF = NFTA_DATA_VALUE by decide)]

/-- One element is read back. -/
theorem parseListElem_attr {element : SetElement} (keyFits : element.key.length ≤ 64) :
    parseListElem order (element.attr order).masked = some element := by
  rw [SetElement.attr, Attribute.masked_nested (by decide), parseListElem,
    if_neg (show ¬ NFTA_LIST_ELEM &&& 0x7FFF ≠ NFTA_LIST_ELEM by decide),
    parseSetElemKey_nests keyFits, Option.map_some]

theorem filterMap_listElem (keysFit : KeysFit elements) :
    ((elements.map (SetElement.attr order)).map Attribute.masked).filterMap
        (parseListElem order) = elements := by
  induction elements with
  | nil => rfl
  | cons element rest ih =>
      obtain ⟨keyFits, restFit⟩ := forall_mem_cons.mp keysFit
      rw [map_cons, map_cons,
        filterMap_cons_some (parseListElem_attr keyFits), ih restFit]

theorem attrs_fit (keysFit : KeysFit elements) :
    ∀ attr ∈ elements.map (SetElement.attr order), attr.Fits := by
  intro attr member
  obtain ⟨element, isElement, rfl⟩ := mem_map.mp member
  exact SetElement.attr_fits (keysFit element isElement)

theorem attrs_aligned (elements : List SetElement) :
    ∀ attr ∈ elements.map (SetElement.attr order), 4 ∣ attr.2.length := by
  intro attr member
  obtain ⟨element, -, rfl⟩ := mem_map.mp member
  exact element.dvd_length_attr

/-- The elements that are found in the first bytes of the nest. -/
theorem filterMap_take (keysFit : KeysFit elements) (size : Nat) :
    ∃ count, (attrIter order ((elementsBody order elements).take size)).filterMap
        (parseListElem order) = elements.take count ∧
      wireSize (elements.take count) ≤ size := by
  obtain ⟨count, isTaken, short⟩ :=
    attrIter_take_whole order (attrs_fit keysFit) (attrs_aligned elements) size
  have takenFit : KeysFit (elements.take count) := fun element member =>
    keysFit element (mem_of_mem_take member)
  refine ⟨count, ?_, ?_⟩
  · rw [elementsBody, isTaken, ← map_take]
    exact filterMap_listElem takenFit
  · rw [← map_take] at short
    rw [← length_elementsBody order]
    exact short

/-- Names that fit into an attribute. -/
structure NamesFit (table set : String) : Prop where
  table : (asBytes table).length ≤ 65530
  set : (asBytes set).length ≤ 65530

variable {table set : String}

/-- The names are attributes of their own in front of the nest. -/
theorem parse_names (namesFit : NamesFit table set) :
    parseSetElements order [] (encodeAll order (messageAttrs order table set elements)) =
      (attrIter order (attrBytes order (NFTA_SET_ELEM_LIST_ELEMENTS ||| NLA_F_NESTED)
        (elementsBody order elements))).flatMap (parseElementList order) := by
  have nameFits : ∀ {name : String}, (asBytes name).length ≤ 65530 →
      NLA_HDRLEN + (asBytes name ++ [0]).length ≤ 65535 := by
    intro name short
    rw [length_append, length_singleton, NLA_HDRLEN]
    omega
  have isEncoded : encodeAll order (messageAttrs order table set elements) =
      attrBytes order NFTA_SET_ELEM_LIST_TABLE (asBytes table ++ [0]) ++
        (attrBytes order NFTA_SET_ELEM_LIST_SET (asBytes set ++ [0]) ++
          attrBytes order (NFTA_SET_ELEM_LIST_ELEMENTS ||| NLA_F_NESTED)
            (elementsBody order elements)) := by
    rw [messageAttrs, encodeAll, flatMap_cons, flatMap_cons, flatMap_singleton]
  have isTable := nextAttr_attrBytes order
    (attrBytes order NFTA_SET_ELEM_LIST_SET (asBytes set ++ [0]) ++
      attrBytes order (NFTA_SET_ELEM_LIST_ELEMENTS ||| NLA_F_NESTED)
        (elementsBody order elements))
    (show NFTA_SET_ELEM_LIST_TABLE < 256 ^ 2 by decide) (nameFits namesFit.table)
  have isSet := nextAttr_attrBytes order
    (attrBytes order (NFTA_SET_ELEM_LIST_ELEMENTS ||| NLA_F_NESTED)
      (elementsBody order elements))
    (show NFTA_SET_ELEM_LIST_SET < 256 ^ 2 by decide) (nameFits namesFit.set)
  have tableNoList : parseElementList order
      (NFTA_SET_ELEM_LIST_TABLE % NLA_F_NET_BYTEORDER, asBytes table ++ [0]) = [] :=
    if_pos (show NFTA_SET_ELEM_LIST_TABLE % NLA_F_NET_BYTEORDER &&& 0x7FFF ≠
      NFTA_SET_ELEM_LIST_ELEMENTS by decide)
  have setNoList : parseElementList order
      (NFTA_SET_ELEM_LIST_SET % NLA_F_NET_BYTEORDER, asBytes set ++ [0]) = [] :=
    if_pos (show NFTA_SET_ELEM_LIST_SET % NLA_F_NET_BYTEORDER &&& 0x7FFF ≠
      NFTA_SET_ELEM_LIST_ELEMENTS by decide)
  rw [parseSetElements_eq, isEncoded, attrIter_of_next isTable, attrIter_of_next isSet,
    flatMap_cons, flatMap_cons, tableNoList, setNoList]
  rfl

theorem parse_short (namesFit : NamesFit table set)
    (keysFit : KeysFit elements) (short : 4 + wireSize elements ≤ 65535) :
    parseSetElements order [] (encodeAll order (messageAttrs order table set elements)) =
      elements := by
  have isLength := length_elementsBody order elements
  have bodyFits : Attribute.Fits
      (NFTA_SET_ELEM_LIST_ELEMENTS ||| NLA_F_NESTED, elementsBody order elements) := by
    refine ⟨show NFTA_SET_ELEM_LIST_ELEMENTS ||| NLA_F_NESTED < 256 ^ 2 by decide, ?_⟩
    change 4 + (elementsBody order elements).length ≤ 65535
    rw [isLength]
    exact short
  have nest := attrIter_encodeAll order (forall_mem_singleton.mpr bodyFits)
  rw [encodeAll, flatMap_singleton, map_singleton,
    Attribute.masked_nested (by decide)] at nest
  have body := attrIter_encodeAll order (@attrs_fit order elements keysFit)
  rw [parse_names namesFit, nest, flatMap_singleton, parseElementList,
    if_neg (show ¬ NFTA_SET_ELEM_LIST_ELEMENTS &&& 0x7FFF ≠ NFTA_SET_ELEM_LIST_ELEMENTS by decide),
    elementsBody, body, filterMap_listElem keysFit]

/-- Past the length field, less room is found than the elements take. -/
theorem parse_long {table set : String} (namesFit : NamesFit table set)
    (keysFit : KeysFit elements) (long : 65535 < 4 + wireSize elements) :
    wireSize (parseSetElements order [] (encodeAll order (messageAttrs order table set elements))) <
      wireSize elements := by
  have isLength := length_elementsBody order elements
  have next := nextAttr_long order
    (show NFTA_SET_ELEM_LIST_ELEMENTS ||| NLA_F_NESTED < 256 ^ 2 by decide)
    (isLength ▸ dvd_wireSize elements)
    (show 65535 < NLA_HDRLEN + (elementsBody order elements).length from isLength ▸ long)
  obtain ⟨count, isTaken, short⟩ := @filterMap_take order elements keysFit 65531
  have behind := wireSize_found order ((elementsBody order elements).drop 65532)
  have aligned := dvd_wireSize elements
  rw [length_drop, isLength, nlaAlign_of_dvd (by omega)] at behind
  rw [parse_names namesFit, attrIter_of_next next, flatMap_cons, wireSize_append,
    parseElementList, nested_kind (by decide), if_neg (show ¬ NFTA_SET_ELEM_LIST_ELEMENTS &&&
    0x7FFF ≠ NFTA_SET_ELEM_LIST_ELEMENTS by decide), isTaken]
  omega

/-- The elements are read back exactly if the nest's length fits. -/
theorem parse_iff (namesFit : NamesFit table set) (keysFit : KeysFit elements) :
    parseSetElements order [] (encodeAll order (messageAttrs order table set elements)) = elements ↔
      4 + wireSize elements ≤ 65535 := by
  constructor
  · intro same
    by_contra long
    have less := @parse_long order elements table set namesFit keysFit (Nat.lt_of_not_le long)
    rw [same] at less
    exact Nat.lt_irrefl _ less
  · exact parse_short namesFit keysFit

end Agreement

section Diffs

variable {order : ByteOrder}

theorem read_addMessage (table set : String) (family : Family) (elements : List SetElement) :
    readSetElements order [addSetElementsMessage order table set family elements] =
      parseSetElements order [] (encodeAll order (messageAttrs order table set elements)) := by
  rw [readSetElements, foldl_cons, foldl_nil, addSetElementsMessage,
    bodyAfterNfgenmsg_message]

theorem read_delMessage (table set : String) (family : Family) (elements : List SetElement) :
    readSetElements order [delSetElementsMessage order table set family elements] =
      parseSetElements order [] (encodeAll order (messageAttrs order table set elements)) := by
  rw [readSetElements, foldl_cons, foldl_nil, delSetElementsMessage,
    bodyAfterNfgenmsg_message]

variable {elements : List SetElement}

theorem read_messages_iff {messages : List (List UInt8)}
    {table set : String} (namesFit : NamesFit table set) (keysFit : KeysFit elements)
    (isEmpty : elements = [] → messages = [])
    (isMessage : elements ≠ [] → readSetElements order messages =
      parseSetElements order [] (encodeAll order (messageAttrs order table set elements))) :
    readSetElements order messages = elements ↔ 4 + wireSize elements ≤ 65535 := by
  by_cases none : elements = []
  · rw [isEmpty none, none]
    exact iff_of_true rfl (by decide)
  · rw [isMessage none]
    exact parse_iff namesFit keysFit

/-- The messages that install a new set, and those that empty one. -/
theorem read_addSet_iff {declared : DeclaredTable} {set : DeclaredSet}
    (namesFit : NamesFit declared.name set.name) (keysFit : KeysFit set.elements) :
    readSetElements order (elementMessages order (addSet declared set)) = set.elements ↔
      4 + wireSize set.elements ≤ 65535 := by
  apply read_messages_iff namesFit keysFit
  · intro none
    rw [elementMessages, addSet, none]
    rfl
  · intro some
    rw [← read_addMessage declared.name set.name declared.family set.elements, elementMessages,
      addSet, if_neg (by simpa using some)]
    rfl

theorem read_removal_iff {declared : DeclaredTable} {set : DeclaredSet} {current : List SetElement}
    (namesFit : NamesFit declared.name set.name) (keysFit : KeysFit current)
    (nothing : set.elements = []) :
    readSetElements order (elementMessages order (diffElements declared set current)) = current ↔
      4 + wireSize current ≤ 65535 := by
  have isRemoved : (current.filter fun element =>
      element.key ∉ set.elements.map SetElement.key) = current := by
    rw [nothing]
    exact filter_eq_self.mpr fun element _ => rfl
  apply read_messages_iff namesFit keysFit
  · intro none
    rw [elementMessages, diffElements, nothing, none]
    rfl
  · intro some
    have nonempty : ¬ current.isEmpty = true := by simpa using some
    rw [← read_delMessage declared.name set.name declared.family current, elementMessages,
      diffElements, isRemoved, nothing, if_neg nonempty]
    rfl

theorem diffElements_same {declared : DeclaredTable} {set : DeclaredSet} :
    diffElements declared set set.elements = NftablesDiff.empty := by
  have none : (set.elements.filter fun element =>
      element.key ∉ set.elements.map SetElement.key) = [] := by
    refine filter_eq_nil_iff.mpr fun element member => ?_
    rw [decide_eq_true_eq, not_not]
    exact mem_map_of_mem member
  rw [diffElements, none]
  rfl

/-- A declared set is installed with all of its elements, and emptied of them, and the
next diff of its elements is empty, exactly if the nest of the elements is no longer
than its length field can say. -/
theorem setElements_survive_iff {declared : DeclaredTable} {set : DeclaredSet}
    (namesFit : NamesFit declared.name set.name) (keysFit : KeysFit set.elements) :
    (readSetElements order (elementMessages order (addSet declared set)) = set.elements ∧
      readSetElements order
          (elementMessages order (diffElements declared { set with elements := [] } set.elements)) =
        set.elements ∧
      diffElements declared set
          (readSetElements order (elementMessages order (addSet declared set))) =
        NftablesDiff.empty) ↔
      4 + wireSize set.elements ≤ 65535 := by
  have isInstalled := @read_addSet_iff order declared set namesFit keysFit
  have isRemoved := @read_removal_iff order declared { set with elements := [] } set.elements
    namesFit keysFit rfl
  constructor
  · rintro ⟨installed, -, -⟩
    exact isInstalled.mp installed
  · intro short
    have installed := isInstalled.mpr short
    refine ⟨installed, isRemoved.mpr short, ?_⟩
    rw [installed]
    exact diffElements_same

def addressSet (elements : List SetElement) : DeclaredSet :=
  { DeclaredSet.new "allowed_v4" with elements := elements }

/-- A table without anything in it. -/
def filterTable : DeclaredTable where
  name := "filter"
  family := .inet
  flags := 0
  chains := []
  rules := []
  flowtables := []
  sets := []
  rulesOwned := nofun
  flowtablesOwned := nofun

theorem filterTable_fits (elements : List SetElement) :
    NamesFit filterTable.name (addressSet elements).name :=
  ⟨by decide, show (asBytes "allowed_v4").length ≤ 65530 by decide⟩

theorem setElements_survive_two :
    let set := addressSet [⟨[10, 0, 0, 1]⟩, ⟨[10, 0, 0, 2]⟩]
    (readSetElements .little (elementMessages .little (addSet filterTable set)) = set.elements ∧
      readSetElements .little
          (elementMessages .little
            (diffElements filterTable { set with elements := [] } set.elements)) =
        set.elements ∧
      diffElements filterTable set
          (readSetElements .little (elementMessages .little (addSet filterTable set))) =
        NftablesDiff.empty) ↔
      4 + wireSize set.elements ≤ 65535 :=
  setElements_survive_iff (filterTable_fits _) (by decide)

/-- As many addresses as one nest has no length for. -/
def manyAddresses : List SetElement :=
  (List.range 4096).map fun index => ⟨[10, 0, UInt8.ofNat (index / 256), UInt8.ofNat (index % 256)]⟩

theorem wireSize_of_length_four
    (four : ∀ element ∈ elements, element.key.length = 4) :
    wireSize elements = 16 * elements.length := by
  induction elements with
  | nil => rfl
  | cons element rest ih =>
      obtain ⟨isFour, restFour⟩ := forall_mem_cons.mp four
      have later := ih restFour
      rw [wireSize] at later
      rw [wireSize, map_cons, sum_cons, later, SetElement.wireSize, isFour,
        length_cons, nlaAlign]
      omega

/-- So many addresses are not installed completely. -/
theorem not_installed_of_many
    (four : ∀ element ∈ elements, element.key.length = 4) (many : 4096 ≤ elements.length) :
    ¬ readSetElements order (elementMessages order (addSet filterTable (addressSet elements))) =
      elements := by
  have isSize := wireSize_of_length_four four
  have keysFit : KeysFit elements := fun element member =>
    Nat.le_trans (Nat.le_of_eq (four element member)) (by decide)
  intro installed
  have short : 4 + wireSize elements ≤ 65535 :=
    (@read_addSet_iff order filterTable (addressSet elements) (filterTable_fits elements)
      keysFit).mp installed
  omega

theorem not_survive_manyAddresses :
    ¬ readSetElements .little (elementMessages .little
        (addSet filterTable (addressSet manyAddresses))) = manyAddresses := by
  have four : ∀ element ∈ manyAddresses, element.key.length = 4 := by
    intro element member
    obtain ⟨index, -, rfl⟩ := mem_map.mp member
    rfl
  have count : manyAddresses.length = 4096 := by
    rw [manyAddresses, length_map, length_range]
  exact not_installed_of_many four (Nat.le_of_eq count.symm)

end Diffs

end Nlink.Nftables
