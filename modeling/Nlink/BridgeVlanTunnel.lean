import Nlink.BridgeVlan
import Nlink.Foundation.Collect
import Nlink.Foundation.Ranges
import Nlink.GenlRequest

namespace Nlink.BridgeVlan

open Foundation Netlink List Writer

/-!
# VLANs behind tunnels

A range of VLANs is mapped to a range of tunnels with a pair of entries that
marks its ends.  The kernel's entries are expanded in one pass, for tunnels and
for VLANs alike.
-/

def bridgeAf.IFLA_BRIDGE_VLAN_TUNNEL_INFO : Nat := 3

namespace bridgeVlanTunnel

def IFLA_BRIDGE_VLAN_TUNNEL_ID : Nat := 1
def IFLA_BRIDGE_VLAN_TUNNEL_VID : Nat := 2
def IFLA_BRIDGE_VLAN_TUNNEL_FLAGS : Nat := 3

end bridgeVlanTunnel

structure BridgeVlanTunnelEntry where
  ifindex : Nat
  vid : BitVec 16
  tunnelId : BitVec 32

/-- `BridgeVlanTunnelBuilder`, with its device left to be resolved. -/
structure BridgeVlanTunnelBuilder where
  vid : BitVec 16
  vidEnd : Option (BitVec 16)
  tunnelId : BitVec 32

def MAX_TUNNEL_ID : BitVec 32 := (1 <<< 24) - 1

/-- A subtraction, without a value where it underflows. -/
def checkedSub {width : Nat} (left right : BitVec width) : Option (BitVec width) :=
  if right ≤ left then some (left - right) else none

/-- An addition, without a value where it overflows. -/
def checkedAdd {width : Nat} (left right : BitVec width) : Option (BitVec width) :=
  if left.toNat + right.toNat < 2 ^ width then some (left + right) else none

section Code

variable (order : ByteOrder)

/-!
## Writing
-/

def tunnelInfo (vid : BitVec 16) (tunnelId : BitVec 32) (flags : BitVec 16) : Writer order :=
  .all [
    .u32 bridgeVlanTunnel.IFLA_BRIDGE_VLAN_TUNNEL_ID tunnelId,
    .u16 bridgeVlanTunnel.IFLA_BRIDGE_VLAN_TUNNEL_VID vid,
    .when (flags ≠ 0) (.u16 bridgeVlanTunnel.IFLA_BRIDGE_VLAN_TUNNEL_FLAGS flags)]

/-- `add_tunnel_entry`. -/
def addTunnelEntry (vid : BitVec 16) (tunnelId : BitVec 32) (flags : BitVec 16) : Writer order :=
  .nest bridgeAf.IFLA_BRIDGE_VLAN_TUNNEL_INFO (tunnelInfo order vid tunnelId flags)

def tunnelHeader (ifindex : Nat) : IfInfoMsg where
  ifiFamily := UInt8.ofNat AF_BRIDGE
  ifiType := 0
  ifiIndex := ifindex
  ifiFlags := 0
  ifiChange := 0

/-- `BridgeVlanTunnelBuilder::write_message`, without a value where its arithmetic
under- or overflows. -/
def BridgeVlanTunnelBuilder.writeMessage (self : BridgeVlanTunnelBuilder) (ifindex : Nat)
    (builder : MessageBuilder) : Option (Except Error MessageBuilder) :=
  if self.tunnelId > MAX_TUNNEL_ID then
    some (.error (.invalidMessage
      s!"tunnel_id {self.tunnelId.toNat} exceeds maximum {MAX_TUNNEL_ID.toNat}"))
  else
    let builder := builder.appendBytes ((tunnelHeader ifindex).asBytes order)
    match self.vidEnd with
    | some vidEnd => do
        let count ← checkedSub vidEnd self.vid
        let tunnelIdEnd ← checkedAdd self.tunnelId (count.setWidth 32)
        if tunnelIdEnd > MAX_TUNNEL_ID then
          some (.error (.invalidMessage
            s!"tunnel_id range end {tunnelIdEnd.toNat} exceeds maximum {MAX_TUNNEL_ID.toNat}"))
        else
          some (.ok ((nest IflaAttr.AfSpec (.all [
            addTunnelEntry order self.vid self.tunnelId (.ofNat 16 BridgeVlanFlags.RANGE_BEGIN),
            addTunnelEntry order vidEnd tunnelIdEnd (.ofNat 16 BridgeVlanFlags.RANGE_END)])).write
              builder))
    | none =>
        some (.ok ((nest IflaAttr.AfSpec (.all [
          addTunnelEntry order self.vid self.tunnelId 0])).write builder))

/-!
## Parsing
-/

/-- What is read of one entry. -/
structure TunnelInfo where
  vid : Option (BitVec 16)
  tunnelId : Option (BitVec 32)
  flags : BitVec 16

def TunnelInfo.addAttr (info : TunnelInfo) (attr : Attribute) : TunnelInfo :=
  if attr.1 = bridgeVlanTunnel.IFLA_BRIDGE_VLAN_TUNNEL_ID ∧ 4 ≤ attr.2.length then
    { info with tunnelId := some (readU32 order attr.2) }
  else if attr.1 = bridgeVlanTunnel.IFLA_BRIDGE_VLAN_TUNNEL_VID ∧ 2 ≤ attr.2.length then
    { info with vid := some (readU16 order attr.2) }
  else if attr.1 = bridgeVlanTunnel.IFLA_BRIDGE_VLAN_TUNNEL_FLAGS ∧ 2 ≤ attr.2.length then
    { info with flags := readU16 order attr.2 }
  else
    info

def TunnelInfo.parse (payload : List UInt8) : TunnelInfo :=
  (attrIter order payload).foldl (TunnelInfo.addAttr order) ⟨none, none, 0⟩

def TunnelInfo.isRangeBegin (info : TunnelInfo) : Bool :=
  info.flags.toNat &&& BridgeVlanFlags.RANGE_BEGIN != 0

def TunnelInfo.isRangeEnd (info : TunnelInfo) : Bool :=
  info.flags.toNat &&& BridgeVlanFlags.RANGE_END != 0

variable (ifindex : Nat)

/-- One mapping for the list of entries. -/
def tunnelEntry (mapping : BitVec 16 × BitVec 32) : BridgeVlanTunnelEntry :=
  ⟨ifindex, mapping.1, mapping.2⟩

/-- The loop over a range, without a value where its arithmetic under- or
overflows. -/
def tunnelRange (start last : BitVec 16 × BitVec 32) : Option (List BridgeVlanTunnelEntry) := do
  let count ← checkedSub last.1 start.1
  (List.range (count.toNat + 1)).mapM fun i => do
    let vid ← checkedAdd start.1 (BitVec.ofNat 16 i)
    let tunnelId ← checkedAdd start.2 (BitVec.ofNat 32 i)
    return tunnelEntry ifindex (vid, tunnelId)

/-- The loop of `parse_af_spec_tunnels`, with the start of a range that has not
ended; it yields the entries it pushes. -/
def scanTunnels : Option (BitVec 16 × BitVec 32) → List Attribute →
    Option (List BridgeVlanTunnelEntry)
  | _, [] => some []
  | rangeStart, (attrType, payload) :: rest =>
      if attrType = bridgeAf.IFLA_BRIDGE_VLAN_TUNNEL_INFO then
        let info := TunnelInfo.parse order payload
        match info.vid, info.tunnelId with
        | some vid, some tunnelId =>
            if info.isRangeBegin then
              -- A range that never ended is taken for a single mapping.
              let orphan :=
                match rangeStart with
                | some previous => [tunnelEntry ifindex previous]
                | none => []
              (scanTunnels (some (vid, tunnelId)) rest).map (orphan ++ ·)
            else if info.isRangeEnd then
              match rangeStart with
              | some start =>
                  (tunnelRange ifindex start (vid, tunnelId)).bind fun range =>
                    (scanTunnels none rest).map (range ++ ·)
              | none => scanTunnels none rest
            else
              (scanTunnels rangeStart rest).map (tunnelEntry ifindex (vid, tunnelId) :: ·)
        | _, _ => scanTunnels rangeStart rest
      else
        scanTunnels rangeStart rest

/-- `parse_af_spec_tunnels`. -/
def parseAfSpecTunnels (data : List UInt8) : Option (List BridgeVlanTunnelEntry) :=
  scanTunnels order ifindex none (attrIter order data)

/-- `parse_tunnel_entries`. -/
def parseTunnelEntries (data : List UInt8) : Option (List BridgeVlanTunnelEntry) :=
  if data.length < IfInfoMsg.SIZE then
    some []
  else do
    let parsed ← (attrIter order (data.drop IfInfoMsg.SIZE)).mapM fun (attrType, payload) =>
      if attrType = IflaAttr.AfSpec then parseAfSpecTunnels order ifindex payload else some []
    return parsed.flatten

end Code

/-!
## What the entries stand for
-/

section Meant

variable (order : ByteOrder) (ifindex : Nat)

/-- The part of an entry in a list of VLANs. -/
def vlanMark (attr : Attribute) : Option (Mark (Nat × Nat)) :=
  if attr.1 = bridgeAf.IFLA_BRIDGE_VLAN_INFO then
    (BridgeVlanInfo.fromBytes order attr.2).map fun info =>
      if info.isRangeBegin then
        .start (info.vid, info.flags)
      else if info.isRangeEnd then
        .finish (info.vid, info.flags)
      else
        .single (info.vid, info.flags)
  else
    none

/-- The part of an entry in a list of mappings. -/
def tunnelMark (attr : Attribute) : Option (Mark (BitVec 16 × BitVec 32)) :=
  if attr.1 = bridgeAf.IFLA_BRIDGE_VLAN_TUNNEL_INFO then
    let info := TunnelInfo.parse order attr.2
    match info.vid, info.tunnelId with
    | some vid, some tunnelId =>
        if info.isRangeBegin then
          some (.start (vid, tunnelId))
        else if info.isRangeEnd then
          some (.finish (vid, tunnelId))
        else
          some (.single (vid, tunnelId))
    | _, _ => none
  else
    none

def vlanMarks (data : List UInt8) : List (Mark (Nat × Nat)) :=
  (attrIter order data).filterMap (vlanMark order)

def tunnelMarks (data : List UInt8) : List (Mark (BitVec 16 × BitVec 32)) :=
  (attrIter order data).filterMap (tunnelMark order)

def vlanEntry (vlan : Nat × Nat) : BridgeVlanEntry :=
  entry ifindex vlan.1 vlan.2

/-- The VLANs from one to another, with the flags of the first. -/
def vlansBetween (start last : Nat × Nat) : List BridgeVlanEntry :=
  (List.range' start.1 (last.1 + 1 - start.1)).map fun vid => entry ifindex vid start.2

/-- The mappings from one to the VLAN of another. -/
def tunnelsBetween (start last : BitVec 16 × BitVec 32) : List BridgeVlanTunnelEntry :=
  (List.range (last.1.toNat + 1 - start.1.toNat)).map fun i =>
    tunnelEntry ifindex (start.1 + BitVec.ofNat 16 i, start.2 + BitVec.ofNat 32 i)

/-- What the marks stand for: the single items, and the ranges, where a range
without an end is its start. -/
def meant {α β : Type} (one : α → β) (between : α → α → List β) (marks : List (Mark α)) : List β :=
  (Mark.singles marks).map one ++
    (Mark.ranges (Mark.bounds marks)).flatMap (Mark.entries one between)

def Expands (start last : BitVec 16 × BitVec 32) : Prop :=
  start.1 ≤ last.1 ∧ start.2.toNat + (last.1.toNat - start.1.toNat) < 2 ^ 32

/-- The loop over the VLANs is a pass over their marks, and at its end the range
that is left open is taken for a single VLAN. -/
theorem scanVlans_eq (rangeStart : Option (Nat × Nat)) (attrs : List Attribute) :
    ∃ found left,
      Mark.scan (vlanEntry ifindex) (fun start last => some (vlansBetween ifindex start last))
        rangeStart (attrs.filterMap (vlanMark order)) = some (found, left) ∧
      scanVlans order ifindex rangeStart attrs = found ++ left.toList.map (vlanEntry ifindex) := by
  induction attrs generalizing rangeStart with
  | nil =>
      refine ⟨[], rangeStart, rfl, ?_⟩
      cases rangeStart <;> rfl
  | cons attr rest ih =>
      obtain ⟨attrType, payload⟩ := attr
      by_cases isInfo : attrType = bridgeAf.IFLA_BRIDGE_VLAN_INFO
      · cases read : BridgeVlanInfo.fromBytes order payload with
        | none =>
            have same := ih rangeStart
            cases rangeStart <;> simpa [vlanMark, scanVlans, isInfo, read] using same
        | some info =>
            by_cases begins : info.isRangeBegin
            · obtain ⟨found, left, scanned, same⟩ := ih (some (info.vid, info.flags))
              refine ⟨rangeStart.toList.map (vlanEntry ifindex) ++ found, left, ?_, ?_⟩
              · simp [vlanMark, isInfo, read, begins, Mark.scan, scanned]
              · cases rangeStart <;> simp [scanVlans, isInfo, read, begins, same, vlanEntry]
            · by_cases ends : info.isRangeEnd
              · obtain ⟨found, left, scanned, same⟩ := ih none
                cases rangeStart with
                | none =>
                    refine ⟨found, left, ?_, ?_⟩
                    · simp [vlanMark, isInfo, read, begins, ends, Mark.scan, Mark.closing, scanned]
                    · simp [scanVlans, isInfo, read, begins, ends, same]
                | some start =>
                    refine ⟨vlansBetween ifindex start (info.vid, info.flags) ++ found, left,
                      ?_, ?_⟩
                    · simp [vlanMark, isInfo, read, begins, ends, Mark.scan, Mark.closing, scanned]
                    · simp [scanVlans, isInfo, read, begins, ends, same, vlansBetween]
              · obtain ⟨found, left, scanned, same⟩ := ih rangeStart
                refine ⟨vlanEntry ifindex (info.vid, info.flags) :: found, left, ?_, ?_⟩
                · simp [vlanMark, isInfo, read, begins, ends, Mark.scan, scanned]
                · cases rangeStart <;>
                    simp [scanVlans, isInfo, read, begins, ends, same, vlanEntry]
      · have same := ih rangeStart
        cases rangeStart <;> simpa [vlanMark, scanVlans, isInfo] using same

/-- The loop over the tunnels is a pass over their marks, but nothing is made of
the range that is left open. -/
theorem scanTunnels_eq (rangeStart : Option (BitVec 16 × BitVec 32)) (attrs : List Attribute) :
    scanTunnels order ifindex rangeStart attrs =
      (Mark.scan (tunnelEntry ifindex) (tunnelRange ifindex) rangeStart
        (attrs.filterMap (tunnelMark order))).map Prod.fst := by
  induction attrs generalizing rangeStart with
  | nil => rfl
  | cons attr rest ih =>
      obtain ⟨attrType, payload⟩ := attr
      by_cases isInfo : attrType = bridgeAf.IFLA_BRIDGE_VLAN_TUNNEL_INFO
      · cases isVid : (TunnelInfo.parse order payload).vid with
        | none => simpa [tunnelMark, scanTunnels, isInfo, isVid] using ih rangeStart
        | some vid =>
            cases isTunnel : (TunnelInfo.parse order payload).tunnelId with
            | none => simpa [tunnelMark, scanTunnels, isInfo, isVid, isTunnel] using ih rangeStart
            | some tunnelId =>
                by_cases begins : (TunnelInfo.parse order payload).isRangeBegin
                · cases rangeStart <;>
                    simp [tunnelMark, scanTunnels, isInfo, isVid, isTunnel, begins, Mark.scan, ih,
                      Function.comp_def]
                · by_cases ends : (TunnelInfo.parse order payload).isRangeEnd
                  · cases rangeStart <;>
                      simp [tunnelMark, scanTunnels, isInfo, isVid, isTunnel, begins, ends,
                        Mark.scan, Mark.closing, ih, Function.comp_def, Option.map_bind]
                  · simp [tunnelMark, scanTunnels, isInfo, isVid, isTunnel, begins, ends, Mark.scan,
                      ih, Function.comp_def]
      · simpa [tunnelMark, scanTunnels, isInfo] using ih rangeStart

instance (start last : BitVec 16 × BitVec 32) : Decidable (Expands start last) :=
  inferInstanceAs (Decidable (_ ∧ _))

/-- A range is expanded exactly if it is not reversed and its last tunnel fits. -/
theorem tunnelRange_eq (start last : BitVec 16 × BitVec 32) :
    tunnelRange ifindex start last =
      if Expands start last then some (tunnelsBetween ifindex start last) else none := by
  rw [tunnelRange, checkedSub]
  by_cases ordered : start.1 ≤ last.1
  · have count : (last.1 - start.1).toNat = last.1.toNat - start.1.toNat :=
      BitVec.toNat_sub_of_le ordered
    have vidFits := last.1.isLt
    have atMost : start.1.toNat ≤ last.1.toNat := ordered
    have each : ∀ i ∈ List.range (last.1.toNat - start.1.toNat + 1), (do
          let vid ← checkedAdd start.1 (BitVec.ofNat 16 i)
          let tunnelId ← checkedAdd start.2 (BitVec.ofNat 32 i)
          return tunnelEntry ifindex (vid, tunnelId)) =
        if start.2.toNat + i < 2 ^ 32 then
          some (tunnelEntry ifindex (start.1 + BitVec.ofNat 16 i, start.2 + BitVec.ofNat 32 i))
        else
          none := by
      intro i member
      have inside := mem_range.mp member
      have small : start.1.toNat + i < 2 ^ 16 := by omega
      have same16 : (BitVec.ofNat 16 i).toNat = i := Nat.mod_eq_of_lt (by omega)
      have same32 : (BitVec.ofNat 32 i).toNat = i := Nat.mod_eq_of_lt (by omega)
      rw [checkedAdd, checkedAdd, same16, same32, if_pos small]
      split
      · rfl
      · rfl
    rw [if_pos ordered, Option.bind_eq_bind, Option.bind_some, count, mapM_guard each,
      tunnelsBetween, Nat.sub_add_comm atMost]
    refine if_congr ?_ rfl rfl
    simp only [mem_range, Expands, ordered, true_and]
    constructor
    · intro all
      exact all _ (by omega)
    · intro lastFits i inside
      omega
  · rw [if_neg ordered, if_neg fun expands => ordered expands.1]
    rfl

/-!
## What is parsed
-/

variable {order} {ifindex}

/-- The VLANs that are parsed are those that the entries stand for. -/
theorem parseAfSpecVlans_perm (data : List UInt8) :
    (parseAfSpecVlans order data ifindex).Perm
      (meant (vlanEntry ifindex) (vlansBetween ifindex) (vlanMarks order data)) := by
  obtain ⟨found, left, scanned, same⟩ := scanVlans_eq order ifindex none (attrIter order data)
  rw [parseAfSpecVlans, same]
  exact Mark.scan_perm (fun _ _ _ isRange => (Option.some.inj isRange).symm) scanned

/-- The mappings are parsed exactly if each range can be expanded and the last mark
starts none. -/
theorem parseAfSpecTunnels_iff (data : List UInt8) :
    (∃ found, parseAfSpecTunnels order ifindex data = some found ∧
      found.Perm (meant (tunnelEntry ifindex) (tunnelsBetween ifindex) (tunnelMarks order data))) ↔
    (∀ start last, (start, some last) ∈ Mark.ranges (Mark.bounds (tunnelMarks order data)) →
        Expands start last) ∧
      ∀ start, (Mark.bounds (tunnelMarks order data)).getLast? ≠ some (.start start) := by
  have isWhole : ∀ start last range, tunnelRange ifindex start last = some range →
      range = tunnelsBetween ifindex start last := by
    intro start last range isRange
    rw [tunnelRange_eq] at isRange
    split at isRange
    · exact (Option.some.inj isRange).symm
    · cases isRange
  have isSome : ∀ start last, (tunnelRange ifindex start last).isSome ↔ Expands start last := by
    intro start last
    rw [tunnelRange_eq]
    split
    · rename_i expands
      exact iff_of_true rfl expands
    · rename_i stuck
      exact iff_of_false Bool.false_ne_true stuck
  have goesThrough : (Mark.scan (tunnelEntry ifindex) (tunnelRange ifindex) none
      (tunnelMarks order data)).isSome ↔
      ∀ start last, (start, some last) ∈ Mark.ranges (Mark.bounds (tunnelMarks order data)) →
        Expands start last :=
    Mark.scan_isSome_iff.trans
      (forall₂_congr fun start last => imp_congr_right fun _ => isSome start last)
  rw [← goesThrough, parseAfSpecTunnels, scanTunnels_eq]
  constructor
  · rintro ⟨found, isParsed, isMeant⟩
    obtain ⟨⟨found, left⟩, scanned, rfl⟩ := Option.map_eq_some_iff.mp isParsed
    refine ⟨Option.isSome_iff_exists.mpr ⟨_, scanned⟩, (Mark.scan_left_iff scanned).mp ?_⟩
    -- as many entries as are meant leave none that is still open
    have lengths := ((Mark.scan_perm isWhole scanned).trans isMeant.symm).length_eq
    rw [length_append] at lengths
    cases left with
    | none => rfl
    | some start => simp at lengths
  · rintro ⟨isScanned, closed⟩
    obtain ⟨⟨found, left⟩, scanned⟩ := Option.isSome_iff_exists.mp isScanned
    have isMeant := Mark.scan_perm isWhole scanned
    rw [(Mark.scan_left_iff scanned).mpr closed] at isMeant
    refine ⟨found, Option.map_eq_some_iff.mpr ⟨_, scanned, rfl⟩, ?_⟩
    rwa [Option.toList_none, map_nil, List.append_nil] at isMeant

end Meant

/-!
## What is written
-/

section Written

variable {order : ByteOrder} (self : BridgeVlanTunnelBuilder) (ifindex : Nat)

def BridgeVlanTunnelBuilder.declared : List BridgeVlanTunnelEntry :=
  tunnelsBetween ifindex (self.vid, self.tunnelId) (self.vidEnd.getD self.vid, self.tunnelId)

variable (order)

/-- The message is refused, or it is written and parsed as what was declared. -/
def WrittenExactly (msgType flags : Nat) : Prop :=
  match self.writeMessage order ifindex (MessageBuilder.new order msgType flags) with
  | none => False
  | some (.error _) => True
  | some (.ok message) =>
      parseTunnelEntries order ifindex (message.buf.drop NLMSG_HDRLEN) =
        some (self.declared ifindex)

variable {order}

section Entry

variable (vid : BitVec 16) (tunnelId : BitVec 32) (flags : BitVec 16)

theorem small_tunnelInfo : (tunnelInfo order vid tunnelId flags).Small 33 := by
  refine Writer.Small.all 11 ?_ (Nat.le_refl 33)
  simp [bridgeVlanTunnel.IFLA_BRIDGE_VLAN_TUNNEL_ID, bridgeVlanTunnel.IFLA_BRIDGE_VLAN_TUNNEL_VID,
    bridgeVlanTunnel.IFLA_BRIDGE_VLAN_TUNNEL_FLAGS]

theorem small_addTunnelEntry : (addTunnelEntry order vid tunnelId flags).Small 40 :=
  (small_tunnelInfo vid tunnelId flags).nest (by decide) (by decide)

/-- An entry that is written is read with its VLAN, its tunnel and its flags. -/
theorem parse_tunnelInfo :
    TunnelInfo.parse order (encodeAll order (tunnelInfo order vid tunnelId flags).attrs) =
      ⟨some vid, some tunnelId, flags⟩ := by
  rw [TunnelInfo.parse, attrIter_payload (small_tunnelInfo vid tunnelId flags)]
  have behind : (Writer.when (flags ≠ 0)
      (.u16 bridgeVlanTunnel.IFLA_BRIDGE_VLAN_TUNNEL_FLAGS flags) : Writer order).seen.foldl
        (TunnelInfo.addAttr order) ⟨some vid, some tunnelId, 0⟩ =
      ⟨some vid, some tunnelId, flags⟩ := by
    by_cases isPlain : flags = 0#16
    · rw [isPlain]
      rfl
    · simp [Writer.when, isPlain, seen_u16, TunnelInfo.addAttr,
        bridgeVlanTunnel.IFLA_BRIDGE_VLAN_TUNNEL_FLAGS, bridgeVlanTunnel.IFLA_BRIDGE_VLAN_TUNNEL_ID,
        bridgeVlanTunnel.IFLA_BRIDGE_VLAN_TUNNEL_VID]
  refine Eq.trans ?_ behind
  simp [tunnelInfo, seen_all_cons, seen_all_nil, seen_u32, seen_u16,
    TunnelInfo.addAttr, bridgeVlanTunnel.IFLA_BRIDGE_VLAN_TUNNEL_ID,
    bridgeVlanTunnel.IFLA_BRIDGE_VLAN_TUNNEL_VID]

theorem tunnelMark_tunnelInfo :
    tunnelMark order (bridgeAf.IFLA_BRIDGE_VLAN_TUNNEL_INFO,
        encodeAll order (tunnelInfo order vid tunnelId flags).attrs) =
      if flags.toNat &&& BridgeVlanFlags.RANGE_BEGIN != 0 then
        some (.start (vid, tunnelId))
      else if flags.toNat &&& BridgeVlanFlags.RANGE_END != 0 then
        some (.finish (vid, tunnelId))
      else
        some (.single (vid, tunnelId)) := by
  rw [tunnelMark, if_pos rfl, parse_tunnelInfo]
  rfl

end Entry

/-- Entries that are written are parsed as one pass over their marks. -/
theorem parseTunnelEntries_written {entries : List (Writer order)} {size : Nat}
    (small : (Writer.all entries).Small size) (atMost : size ≤ 65531) (msgType flags : Nat) :
    parseTunnelEntries order ifindex
        (((nest IflaAttr.AfSpec (.all entries)).write
          ((MessageBuilder.new order msgType flags).appendBytes
            ((tunnelHeader ifindex).asBytes order))).buf.drop NLMSG_HDRLEN) =
      scanTunnels order ifindex none (Writer.all entries).seen := by
  have header : ((tunnelHeader ifindex).asBytes order).length = IfInfoMsg.SIZE := by
    simp [IfInfoMsg.asBytes, IfInfoMsg.SIZE]
  have nested := small.nest atMost (show IflaAttr.AfSpec < NLA_F_NET_BYTEORDER by decide)
  rw [buf_behind _ _ _ ⟨4, header⟩, NLMSG_HDRLEN, drop_left' (asBytes_length order _),
    parseTunnelEntries, if_neg (by rw [length_append, header]; omega),
    drop_left' header, attrIter_payload nested, seen_nest (by decide)]
  rw [mapM_cons, mapM_nil]
  dsimp only
  rw [if_pos rfl, parseAfSpecTunnels, attrIter_payload small]
  cases scanTunnels order ifindex none (Writer.all entries).seen with
  | none => rfl
  | some found => simp

theorem seen_addTunnelEntry (vid : BitVec 16) (tunnelId : BitVec 32) (flags : BitVec 16) :
    (addTunnelEntry order vid tunnelId flags).seen = [(bridgeAf.IFLA_BRIDGE_VLAN_TUNNEL_INFO,
      encodeAll order (tunnelInfo order vid tunnelId flags).attrs)] :=
  seen_nest (by decide) _

theorem scanTunnels_single (vid : BitVec 16) (tunnelId : BitVec 32) :
    scanTunnels order ifindex none (Writer.all [addTunnelEntry order vid tunnelId 0]).seen =
      some (tunnelsBetween ifindex (vid, tunnelId) (vid, tunnelId)) := by
  have one : vid.toNat + 1 - vid.toNat = 1 := Nat.add_sub_cancel_left _ 1
  rw [scanTunnels_eq, seen_all_cons, seen_addTunnelEntry, singleton_append,
    filterMap_cons_some (tunnelMark_tunnelInfo vid tunnelId 0), tunnelsBetween, one]
  simp [seen_all_nil, Mark.scan]

theorem scanTunnels_range (start last : BitVec 16 × BitVec 32) :
    scanTunnels order ifindex none (Writer.all [
        addTunnelEntry order start.1 start.2 (.ofNat 16 BridgeVlanFlags.RANGE_BEGIN),
        addTunnelEntry order last.1 last.2 (.ofNat 16 BridgeVlanFlags.RANGE_END)]).seen =
      tunnelRange ifindex start last := by
  rw [scanTunnels_eq, seen_all_cons, seen_addTunnelEntry, singleton_append,
    filterMap_cons_some (tunnelMark_tunnelInfo _ _ _), seen_all_cons, seen_addTunnelEntry,
    singleton_append, filterMap_cons_some (tunnelMark_tunnelInfo _ _ _), seen_all_nil]
  cases isRange : tunnelRange ifindex start last with
  | none | some range => simp [Mark.scan, Mark.closing, isRange]

/-- The range of tunnels is told by its first alone. -/
theorem tunnelsBetween_last (start : BitVec 16 × BitVec 32) (vid : BitVec 16)
    (tunnelId other : BitVec 32) :
    tunnelsBetween ifindex start (vid, tunnelId) = tunnelsBetween ifindex start (vid, other) :=
  rfl

/-- A range that can be expanded is parsed as it was written. -/
theorem parseTunnelEntries_range {start last : BitVec 16 × BitVec 32} (expands : Expands start last)
    (msgType flags : Nat) :
    parseTunnelEntries order ifindex
        (((nest IflaAttr.AfSpec (.all [
          addTunnelEntry order start.1 start.2 (.ofNat 16 BridgeVlanFlags.RANGE_BEGIN),
          addTunnelEntry order last.1 last.2 (.ofNat 16 BridgeVlanFlags.RANGE_END)])).write
          ((MessageBuilder.new order msgType flags).appendBytes
            ((tunnelHeader ifindex).asBytes order))).buf.drop NLMSG_HDRLEN) =
      some (tunnelsBetween ifindex start last) := by
  have small : (Writer.all [
      addTunnelEntry order start.1 start.2 (.ofNat 16 BridgeVlanFlags.RANGE_BEGIN),
      addTunnelEntry order last.1 last.2 (.ofNat 16 BridgeVlanFlags.RANGE_END)]).Small 80 :=
    Writer.Small.all 40 (by simp [small_addTunnelEntry]) (Nat.le_refl 80)
  rw [parseTunnelEntries_written ifindex small (by decide), scanTunnels_range, tunnelRange_eq,
    if_pos expands]

variable {self}

/-- What is written is exact unless the range is reversed. -/
theorem writtenExactly_iff (msgType flags : Nat) : WrittenExactly order self ifindex msgType flags ↔
      ¬ (self.tunnelId ≤ MAX_TUNNEL_ID ∧ ∃ vidEnd ∈ self.vidEnd, vidEnd < self.vid) := by
  by_cases inside : self.tunnelId ≤ MAX_TUNNEL_ID
  · have notBeyond : ¬ self.tunnelId > MAX_TUNNEL_ID := BitVec.not_lt.mpr inside
    rw [WrittenExactly, BridgeVlanTunnelBuilder.writeMessage, if_neg notBeyond,
      BridgeVlanTunnelBuilder.declared]
    cases isEnd : self.vidEnd with
    | none =>
        have small : (Writer.all [addTunnelEntry order self.vid self.tunnelId 0]).Small 40 :=
          Writer.Small.all 40 (by simp [small_addTunnelEntry]) (Nat.le_refl 40)
        refine iff_of_true ?_ fun reversed => by simp at reversed
        dsimp only
        rw [parseTunnelEntries_written ifindex small (by decide), scanTunnels_single,
          Option.getD_none]
    | some vidEnd =>
        dsimp only
        by_cases ordered : self.vid ≤ vidEnd
        · refine iff_of_true ?_ fun reversed => ?_
          · have atMost : self.tunnelId.toNat ≤ 16777215 := inside
            have count := (vidEnd - self.vid).isLt
            have same : ((vidEnd - self.vid).setWidth 32).toNat = (vidEnd - self.vid).toNat := by
              rw [BitVec.toNat_setWidth]
              omega
            have fits : self.tunnelId.toNat + ((vidEnd - self.vid).setWidth 32).toNat < 2 ^ 32 := by
              omega
            have expands : Expands (self.vid, self.tunnelId)
                (vidEnd, self.tunnelId + (vidEnd - self.vid).setWidth 32) := by
              refine ⟨ordered, ?_⟩
              rwa [same, BitVec.toNat_sub_of_le ordered] at fits
            rw [checkedSub, if_pos ordered, Option.bind_eq_bind, Option.bind_some, checkedAdd,
              if_pos fits, Option.bind_eq_bind, Option.bind_some]
            by_cases beyond : self.tunnelId + (vidEnd - self.vid).setWidth 32 > MAX_TUNNEL_ID
            · rw [if_pos beyond]
              trivial
            · rw [if_neg beyond, Option.getD_some]
              exact (parseTunnelEntries_range ifindex expands msgType flags).trans
                (congrArg some (tunnelsBetween_last ifindex _ _ _ _))
          · obtain ⟨_, _, ⟨⟩, less⟩ := reversed
            exact absurd ordered (BitVec.not_le.mpr less)
        · rw [checkedSub, if_neg ordered]
          exact iff_of_false id fun kept => kept ⟨inside, vidEnd, rfl, BitVec.not_le.mp ordered⟩
  · refine iff_of_true ?_ fun within => inside within.1
    rw [WrittenExactly, BridgeVlanTunnelBuilder.writeMessage, if_pos (BitVec.not_le.mp inside)]
    trivial

end Written

section Exact

variable (order : ByteOrder) (self : BridgeVlanTunnelBuilder) (ifindex msgType flags : Nat)
  (data : List UInt8)

/-- Mappings are written exactly unless the range is reversed.  What the entries
stand for is always parsed of VLANs; of tunnels it is parsed exactly if no range is
reversed or leaves the tunnels there are, and no range is open at the end. -/
theorem exact_iff :
    (WrittenExactly order self ifindex msgType flags ↔
      ¬ (self.tunnelId ≤ MAX_TUNNEL_ID ∧ ∃ vidEnd ∈ self.vidEnd, vidEnd < self.vid)) ∧
    (parseAfSpecVlans order data ifindex).Perm
      (meant (vlanEntry ifindex) (vlansBetween ifindex) (vlanMarks order data)) ∧
    ((∃ found, parseAfSpecTunnels order ifindex data = some found ∧
      found.Perm (meant (tunnelEntry ifindex) (tunnelsBetween ifindex) (tunnelMarks order data))) ↔
      (∀ start last, (start, some last) ∈ Mark.ranges (Mark.bounds (tunnelMarks order data)) →
        Expands start last) ∧
      ∀ start, (Mark.bounds (tunnelMarks order data)).getLast? ≠ some (.start start)) :=
  ⟨writtenExactly_iff ifindex msgType flags, parseAfSpecVlans_perm data,
    parseAfSpecTunnels_iff data⟩

end Exact

def reversed : BridgeVlanTunnelBuilder :=
  ⟨10, some 5, 100⟩

/-- A range that the kernel started and did not end. -/
def unended : List UInt8 :=
  encodeAll .little (addTunnelEntry .little 10 100 (.ofNat 16 BridgeVlanFlags.RANGE_BEGIN)).attrs

/-- A reversed range is computed with an underflow, and a range that is not ended is
left out though it stands for a mapping. -/
theorem not_exact : ¬ WrittenExactly .little reversed 7 19 5 ∧
    ¬ ∃ found, parseAfSpecTunnels .little 7 unended = some found ∧
      found.Perm (meant (tunnelEntry 7) (tunnelsBetween 7) (tunnelMarks .little unended)) := by
  have marks : (attrIter .little unended).filterMap (tunnelMark .little) =
      [.start (10, 100)] := by
    rw [unended, attrIter_payload (small_addTunnelEntry _ _ _), seen_addTunnelEntry,
      filterMap_cons_some (tunnelMark_tunnelInfo _ _ _)]
    rfl
  refine ⟨id, ?_⟩
  rintro ⟨found, isParsed, isMeant⟩
  rw [parseAfSpecTunnels, scanTunnels_eq, marks] at isParsed
  cases isParsed
  rw [tunnelMarks, marks] at isMeant
  cases isMeant.length_eq

end Nlink.BridgeVlan
