import Nlink.NftablesDecoding

namespace Nlink.Nftables

open Foundation Netlink List
open Wireguard (getString)

/-!
# Reading inside of a buffer

The parts that the decoder goes through are slices of the buffer.  Where the
buffer is aligned for the iterator it reads from them what is read from their
bytes, and elsewhere the iterator gives nothing at once.
-/

/-- A reader whose valid parts have the attributes of their bytes, which are valid
again. -/
structure Reader.Reads {δ : Type} (reader : Reader Option δ) (order : ByteOrder)
    (Valid : δ → Prop) : Prop where
  empty : Valid reader.empty
  noBytes : reader.bytes reader.empty = []
  attrs : ∀ part, Valid part → ∃ found, reader.attrs part = some found ∧
    (found.map fun attr => (attr.1, reader.bytes attr.2)) = attrIter order (reader.bytes part) ∧
    ∀ attr ∈ found, Valid attr.2

section Reading

variable {δ : Type} {reader : Reader Option δ} {order : ByteOrder} {Valid : δ → Prop}
variable {part : δ} {attrs : List (Nat × δ)}

/-- A part that comes with something, as its bytes. -/
def Reader.value {α : Type} (reader : Reader Option δ) (pair : α × δ) : α × List UInt8 :=
  (pair.1, reader.bytes pair.2)

namespace Reader.Reads

section

variable (reads : reader.Reads order Valid)

include reads

theorem values (valid : Valid part) :
    reader.values part = some (attrIter order (reader.bytes part)) := by
  obtain ⟨found, isFound, isIter, -⟩ := reads.attrs part valid
  rw [Reader.values, isFound, ← isIter]
  rfl

/-- The attributes of a valid part and those of its bytes. -/
theorem exists_attrs (valid : Valid part) :
    ∃ attrs, reader.attrs part = some attrs ∧
      (bytesReader order).attrs (reader.bytes part) = attrs.map reader.value ∧
      ∀ attr ∈ attrs, Valid attr.2 := by
  obtain ⟨attrs, isAttrs, isIter, validAttrs⟩ := reads.attrs part valid
  exact ⟨attrs, isAttrs, isIter.symm, validAttrs⟩

theorem parseCounter_eq (valid : Valid part) :
    parseCounter reader part = some (parseCounter (bytesReader order) (reader.bytes part)) := by
  rw [parseCounter, reads.values valid, parseCounter_bytes]
  rfl

theorem parseMeta_eq (valid : Valid part) :
    parseMeta reader part = some (parseMeta (bytesReader order) (reader.bytes part)) := by
  rw [parseMeta, reads.values valid, parseMeta_bytes]
  rfl

theorem parsePayload_eq (valid : Valid part) :
    parsePayload reader part = some (parsePayload (bytesReader order) (reader.bytes part)) := by
  rw [parsePayload, reads.values valid, parsePayload_bytes]
  rfl

theorem parseVerdict_eq (valid : Valid part) :
    parseVerdict reader part = some (parseVerdict (bytesReader order) (reader.bytes part)) := by
  rw [parseVerdict, reads.values valid, parseVerdict_bytes]
  rfl

end

theorem immediateAttr_value (found : Option Register × δ) (attr : Nat × δ) :
    immediateAttr (bytesReader order) (reader.value found) (reader.value attr) =
      (immediateAttr reader found attr).map reader.value := by
  rw [immediateAttr, immediateAttr, apply_ite (Option.map reader.value),
    apply_ite (Option.map reader.value), Option.map_map]
  rfl

variable {attr : Nat × δ}

theorem immediateAttr_valid {found later : Option Register × δ}
    (isLater : immediateAttr reader found attr = some later) (validFound : Valid found.2)
    (validAttr : Valid attr.2) : Valid later.2 := by
  rw [immediateAttr] at isLater
  split at isLater
  · obtain ⟨dreg, -, rfl⟩ := Option.map_eq_some_iff.mp isLater
    exact validFound
  · split at isLater
    · cases isLater
      exact validAttr
    · cases isLater
      exact validFound

theorem foldlM_immediateAttr (validAttrs : ∀ attr ∈ attrs, Valid attr.2)
    {found : Option Register × δ} (validFound : Valid found.2) :
    (attrs.map reader.value).foldlM (immediateAttr (bytesReader order)) (reader.value found) =
        (attrs.foldlM (immediateAttr reader) found).map reader.value ∧
      ∀ last, attrs.foldlM (immediateAttr reader) found = some last → Valid last.2 := by
  induction attrs generalizing found with
  | nil => exact ⟨rfl, fun last isLast => by cases isLast; exact validFound⟩
  | cons attr attrs ih =>
      obtain ⟨validAttr, validRest⟩ := forall_mem_cons.mp validAttrs
      rw [map_cons, foldlM_cons, foldlM_cons, immediateAttr_value]
      cases isLater : immediateAttr reader found attr with
      | none => exact ⟨rfl, nofun⟩
      | some later => exact ih validRest (immediateAttr_valid isLater validFound validAttr)

section

variable (reads : reader.Reads order Valid)

include reads

theorem immediateValue_eq
    (validAttrs : ∀ attr ∈ attrs, Valid attr.2) (dreg : Register) :
    immediateValue reader dreg attrs =
      some (immediateValue (bytesReader order) dreg (attrs.map reader.value)) := by
  induction attrs with
  | nil => rfl
  | cons attr attrs ih =>
      obtain ⟨validAttr, validRest⟩ := forall_mem_cons.mp validAttrs
      rw [map_cons, immediateValue, immediateValue, ih validRest,
        reads.parseVerdict_eq validAttr, apply_ite some, apply_ite some]
      rfl

theorem parseImmediate_eq (valid : Valid part) :
    parseImmediate reader part = some (parseImmediate (bytesReader order) (reader.bytes part)) := by
  obtain ⟨attrs, isAttrs, values, validAttrs⟩ := reads.exists_attrs valid
  have start : ((none : Option Register), (bytesReader order).empty) =
      reader.value (none, reader.empty) := by
    rw [Reader.value, reads.noBytes]
    rfl
  obtain ⟨isLast, validLast⟩ := @foldlM_immediateAttr δ reader order Valid attrs validAttrs
    (none, reader.empty) reads.empty
  rw [parseImmediate, parseImmediate, isAttrs, values]
  dsimp only [bind, Option.bind]
  rw [start, isLast]
  cases isLoop : attrs.foldlM (immediateAttr reader) (none, reader.empty) with
  | none => rfl
  | some last =>
      obtain ⟨dreg, nest⟩ := last
      cases dreg with
      | none => rfl
      | some dreg =>
          obtain ⟨inner, isInner, innerValues, validInner⟩ :=
            reads.exists_attrs (validLast _ isLoop)
          dsimp only [Option.map, Reader.value]
          rw [isInner, innerValues]
          exact immediateValue_eq reads validInner dreg

theorem cmpAttr_eq (validAttr : Valid attr.2) (fields : CmpFields) :
    cmpAttr reader fields attr = some (cmpAttr (bytesReader order) fields (reader.value attr)) := by
  have values : (bytesReader order).values (reader.value attr).2 =
      attrIter order (reader.bytes attr.2) :=
    bytesReader_values _
  rw [cmpAttr, cmpAttr, reads.values validAttr, values, apply_ite some, apply_ite some,
    apply_ite some]
  rfl

theorem cmpAttrs_eq (validAttrs : ∀ attr ∈ attrs, Valid attr.2) (fields : CmpFields) :
    cmpAttrs reader fields attrs =
      some (cmpAttrs (bytesReader order) fields (attrs.map reader.value)) := by
  induction attrs generalizing fields with
  | nil => rfl
  | cons attr attrs ih =>
      obtain ⟨validAttr, validRest⟩ := forall_mem_cons.mp validAttrs
      rw [map_cons, cmpAttrs, cmpAttrs, reads.cmpAttr_eq validAttr]
      dsimp only [bind, Option.bind]
      cases cmpAttr (bytesReader order) fields (reader.value attr) with
      | none => rfl
      | some fields => exact ih validRest fields

theorem parseCmp_eq (valid : Valid part) :
    parseCmp reader part = some (parseCmp (bytesReader order) (reader.bytes part)) := by
  obtain ⟨attrs, isAttrs, values, validAttrs⟩ := reads.exists_attrs valid
  rw [parseCmp, parseCmp, isAttrs, values]
  dsimp only [bind, Option.bind]
  rw [reads.cmpAttrs_eq validAttrs]
  rfl

theorem parseExpr_eq (valid : Valid part) (name : String) :
    parseExpr reader name part =
      some (parseExpr (bytesReader order) name (reader.bytes part)) := by
  rw [parseExpr, parseExpr, reads.parseCounter_eq valid, reads.parseImmediate_eq valid,
    reads.parseMeta_eq valid, reads.parseCmp_eq valid, reads.parsePayload_eq valid]
  split
  · rfl
  · split
    · rfl
    · split
      · rfl
      · split
        · rfl
        · split
          · rfl
          · rfl

end

theorem foldl_elementAttr_value (validAttrs : ∀ attr ∈ attrs, Valid attr.2)
    {found : Option String × δ} (validFound : Valid found.2) :
    (attrs.map reader.value).foldl (elementAttr (bytesReader order)) (reader.value found) =
        reader.value (attrs.foldl (elementAttr reader) found) ∧
      Valid (attrs.foldl (elementAttr reader) found).2 := by
  induction attrs generalizing found with
  | nil => exact ⟨rfl, validFound⟩
  | cons attr attrs ih =>
      obtain ⟨validAttr, validRest⟩ := forall_mem_cons.mp validAttrs
      have isLater : elementAttr (bytesReader order) (reader.value found) (reader.value attr) =
          reader.value (elementAttr reader found attr) := by
        rw [elementAttr, elementAttr, apply_ite reader.value, apply_ite reader.value]
        rfl
      have validLater : Valid (elementAttr reader found attr).2 := by
        rw [elementAttr]
        split
        · exact validFound
        · split
          · exact validAttr
          · exact validFound
      rw [map_cons, foldl_cons, foldl_cons, isLater]
      exact ih validRest validLater

theorem parseElement_eq (reads : reader.Reads order Valid) (validAttr : Valid attr.2) :
    parseElement reader attr = some (parseElement (bytesReader order) (reader.value attr)) := by
  obtain ⟨attrs, isAttrs, values, validAttrs⟩ := reads.exists_attrs validAttr
  have start : ((none : Option String), (bytesReader order).empty) =
      reader.value (none, reader.empty) := by
    rw [Reader.value, reads.noBytes]
    rfl
  obtain ⟨isFound, validFound⟩ := @foldl_elementAttr_value δ reader order Valid attrs validAttrs
    (none, reader.empty) reads.empty
  rw [parseElement, parseElement]
  by_cases other : attr.1 ≠ NFTA_LIST_ELEM
  · rw [if_pos other, if_pos (show (reader.value attr).1 ≠ NFTA_LIST_ELEM from other)]
    rfl
  · rw [if_neg other, if_neg (show ¬ (reader.value attr).1 ≠ NFTA_LIST_ELEM from other), isAttrs]
    dsimp only [Reader.value, bind, Option.bind] at isFound start ⊢
    rw [values, start, isFound]
    generalize attrs.foldl (elementAttr reader) (none, reader.empty) = found at validFound ⊢
    obtain ⟨name, data⟩ := found
    cases name with
    | none => rfl
    | some name =>
        dsimp only
        rw [reads.parseExpr_eq validFound]
        rfl

theorem parseElements_eq (reads : reader.Reads order Valid)
    (validAttrs : ∀ attr ∈ attrs, Valid attr.2) :
    parseElements reader attrs =
      some (parseElements (bytesReader order) (attrs.map reader.value)) := by
  induction attrs with
  | nil => rfl
  | cons attr attrs ih =>
      obtain ⟨validAttr, validRest⟩ := forall_mem_cons.mp validAttrs
      rw [map_cons, parseElements, parseElements, reads.parseElement_eq validAttr, ih validRest]
      rfl

/-- What is read from a valid part is what is read from its bytes. -/
theorem parseExpressions_eq (reads : reader.Reads order Valid) (valid : Valid part) :
    parseExpressions reader part =
      some (parseExpressions (bytesReader order) (reader.bytes part)) := by
  obtain ⟨attrs, isAttrs, values, validAttrs⟩ := reads.exists_attrs valid
  rw [parseExpressions, parseExpressions, isAttrs, values]
  exact reads.parseElements_eq validAttrs

end Reader.Reads

end Reading

namespace Part

variable {order : ByteOrder} {address : Nat} {buffer : List UInt8}

/-- Slices that are inside of the buffer are parts. -/
theorem exists_mapM_of? {found : List (Nat × Slice)}
    (inside : ∀ attr ∈ found, attr.2.stop ≤ buffer.length) :
    ∃ parts : List (Nat × Part buffer),
      (found.mapM fun attr => (of? buffer attr.2).map fun payload => (attr.1, payload)) =
        some parts ∧
      (parts.map fun attr => (attr.1, attr.2.slice)) = found := by
  induction found with
  | nil => exact ⟨[], rfl, rfl⟩
  | cons attr found ih =>
      obtain ⟨attrInside, restInside⟩ := forall_mem_cons.mp inside
      obtain ⟨parts, isParts, areSlices⟩ := ih restInside
      refine ⟨(attr.1, ⟨attr.2, attrInside⟩) :: parts, ?_, ?_⟩
      · rw [mapM_cons, isParts, of?, dif_pos attrInside]
        rfl
      · rw [map_cons, areSlices]

/-- The attributes of a slice, if the iterator comes to its end on it and yields
slices of the buffer. -/
theorem exists_attrs {part : Part buffer} {found : List (Nat × Slice)} {last : Slice}
    (drains : Drains (AttrIter.next order address buffer) part.slice found last)
    (few : found.length ≤ part.slice.len)
    (inside : ∀ attr ∈ found, attr.2.stop ≤ buffer.length) :
    ∃ parts, part.attrs order address = some parts ∧
      (parts.map fun attr => (attr.1, attr.2.slice)) = found := by
  obtain ⟨parts, isParts, areSlices⟩ := exists_mapM_of? inside
  refine ⟨parts, ?_, areSlices⟩
  rw [attrs, drains.drain_eq (Nat.lt_succ_of_le few)]
  exact (if_pos drains.ends).trans isParts

theorem reads (order : ByteOrder) (address : Nat) (buffer : List UInt8) :
    (reader order address buffer).Reads order fun part => AlignedIn address buffer part.slice where
  empty := ⟨Nat.zero_le _, .inl rfl⟩
  noBytes := bytes_of_len_zero rfl
  attrs part aligned := by
    obtain ⟨found, last, drains, few⟩ :=
      @AttrIter.exists_drains_aligned order address buffer part.slice aligned
    obtain ⟨isIter, alignedFound⟩ := AttrIter.values_aligned drains aligned
    obtain ⟨parts, isParts, areSlices⟩ :=
      exists_attrs drains few fun attr member => (alignedFound attr member).1
    refine ⟨parts, isParts, ?_, fun attr member => ?_⟩
    · rw [← areSlices, map_map] at isIter
      exact isIter
    · refine alignedFound (attr.1, attr.2.slice) ?_
      rw [← areSlices]
      exact mem_map_of_mem member

/-- On a buffer at an odd address the iterator yields nothing. -/
theorem next_odd (odd : address % 2 ≠ 0) :
    AttrIter.next order address buffer (Slice.whole buffer) =
      some (none, Slice.whole buffer) := by
  rw [AttrIter.next]
  split
  · rfl
  · have isOdd : (address + (Slice.whole buffer).start) % 2 ≠ 0 := odd
    rw [NlAttr.refFromPrefix, if_pos isOdd]

theorem bytes_whole (buffer : List UInt8) : (Slice.whole buffer).bytes buffer = buffer :=
  take_length

/-- What the decoder does with bytes from anywhere: it comes to its end without
reaching out of them. -/
theorem parseExpressions_whole (order : ByteOrder) (address : Nat) (buffer : List UInt8) :
    parseExpressions (reader order address buffer) (whole buffer) =
      some
        (if address % 2 = 0 then
          parseExpressions (bytesReader order) buffer
        else
          []) := by
  split
  · rename_i even
    have aligned : AlignedIn address buffer (whole buffer).slice :=
      ⟨(whole buffer).inside, .inr even⟩
    have isBuffer : (reader order address buffer).bytes (whole buffer) = buffer :=
      bytes_whole buffer
    have isParsed := (reads order address buffer).parseExpressions_eq aligned
    rw [isBuffer] at isParsed
    exact isParsed
  · rename_i odd
    obtain ⟨parts, isParts, areSlices⟩ := @exists_attrs order address buffer (whole buffer) [] _
      (.done (next_odd odd)) (Nat.zero_le _) nofun
    obtain rfl := map_eq_nil_iff.mp areSlices
    change ((whole buffer).attrs order address >>= _) = _
    rw [isParts]
    rfl

end Part

/-- What is written for expressions is read back in order, each expression as its value
or as its name and its bytes; and bytes from anywhere are read to their end without
reaching out of them. -/
theorem parseExpressions_inverts {order : ByteOrder} {builder : MessageBuilder}
    (aligned : 4 ∣ builder.buf.length) {exprs : List Expr}
    (short : ∀ expr ∈ exprs, (writeExpr order ⟨[]⟩ expr).buf.length < 65536)
    (typed : ∀ expr ∈ exprs, expr.Typed) (loadsData : ∀ expr ∈ exprs, expr.LoadsData) :
    parseExpressions (bytesReader order)
        ((writeExpressions order builder exprs).buf.drop (builder.buf.length + NLA_HDRLEN)) =
      exprs.map (Expr.decoded order) ∧
    ∀ (address : Nat) (buffer : List UInt8),
      parseExpressions (Part.reader order address buffer) (Part.whole buffer) =
        some
          (if address % 2 = 0 then
            parseExpressions (bytesReader order) buffer
          else
            []) := by
  refine ⟨?_, Part.parseExpressions_whole order⟩
  rw [writeExpressions_payload order builder aligned]
  exact parseExpressions_written short typed loadsData

/-- A rule that counts packets to a port and jumps, with an expression that is not
decoded. -/
def countAndJump : List Expr :=
  [.metaLoad .r0 .l4Proto, .cmp .r0 .eq [6], .payload .r0 .transport 2 2,
    .cmp .r0 .eq [0, 22], .counter, .limit 10 .minute 5, .masquerade,
    .verdict (.jumpTo ⟨"input", by decide⟩)]

theorem parseExpressions_inverts_countAndJump :
    parseExpressions (bytesReader .little)
        ((writeExpressions .little (.new .little 0 0) countAndJump).buf.drop
          ((MessageBuilder.new .little 0 0).buf.length + NLA_HDRLEN)) =
      countAndJump.map (Expr.decoded .little) ∧
    ∀ (address : Nat) (buffer : List UInt8),
      parseExpressions (Part.reader .little address buffer) (Part.whole buffer) =
        some
          (if address % 2 = 0 then
            parseExpressions (bytesReader .little) buffer
          else
            []) :=
  parseExpressions_inverts (by decide) (by decide +kernel) (by simp [countAndJump, Expr.Typed])
    (by simp [countAndJump, Expr.LoadsData])

end Nlink.Nftables
