import Mathlib.Algebra.Order.BigOperators.Group.List
import Mathlib.Data.Finset.Card
import Mathlib.Data.Finset.Range
import Nlink.Foundation.Scan
import Nlink.NetlinkFrames

namespace Nlink.BridgeVlan

open Foundation Netlink List

/-!
# Reading bridge VLANs back

A port's VLANs are asked for with a request for its link, a bridge's with a
dump of all links.  Both replies list the VLANs in the link's address family
attribute, where two entries may stand for a range.
-/

def AF_BRIDGE : Nat := 7
def RTM_NEWLINK : Nat := 16

def IflaAttr.Master : Nat := 10
def IflaAttr.AfSpec : Nat := 26
def bridgeAf.IFLA_BRIDGE_VLAN_INFO : Nat := 2

namespace BridgeVlanFlags

def PVID : Nat := 0x02
def UNTAGGED : Nat := 0x04
def RANGE_BEGIN : Nat := 0x08
def RANGE_END : Nat := 0x10

end BridgeVlanFlags

/-- The fixed header of a link message. -/
structure IfInfoMsg where
  ifiFamily : UInt8
  ifiType : Nat
  ifiIndex : Nat
  ifiFlags : Nat
  ifiChange : Nat

namespace IfInfoMsg

def SIZE : Nat := 16

/-- The bytes of the header; the second is padding. -/
def asBytes (order : ByteOrder) (msg : IfInfoMsg) : List UInt8 :=
  msg.ifiFamily :: 0 :: order.toBytes 2 msg.ifiType ++
    order.toBytes 4 msg.ifiIndex ++ order.toBytes 4 msg.ifiFlags ++
    order.toBytes 4 msg.ifiChange

/-- Read the header off the front of the bytes. -/
def fromBytes (order : ByteOrder) (data : List UInt8) : Except Error IfInfoMsg :=
  if data.length < SIZE then
    .error (.truncated SIZE data.length)
  else
    .ok
      { ifiFamily := data.headD 0
        ifiType := order.ofBytes ((data.drop 2).take 2)
        ifiIndex := order.ofBytes ((data.drop 4).take 4)
        ifiFlags := order.ofBytes ((data.drop 8).take 4)
        ifiChange := order.ofBytes ((data.drop 12).take 4) }

end IfInfoMsg

/-- The flags of a VLAN on a port. -/
structure BridgeVlanFlags where
  pvid : Bool
  untagged : Bool
  deriving DecidableEq

/-- The flags among the kernel's. -/
def BridgeVlanFlags.fromRaw (flags : Nat) : BridgeVlanFlags where
  pvid := flags &&& BridgeVlanFlags.PVID != 0
  untagged := flags &&& BridgeVlanFlags.UNTAGGED != 0

/-- A VLAN of an interface. -/
structure BridgeVlanEntry where
  ifindex : Nat
  vid : Nat
  flags : BridgeVlanFlags

/-- `struct bridge_vlan_info`. -/
structure BridgeVlanInfo where
  flags : Nat
  vid : Nat

namespace BridgeVlanInfo

def isRangeBegin (info : BridgeVlanInfo) : Bool :=
  info.flags &&& BridgeVlanFlags.RANGE_BEGIN != 0

def isRangeEnd (info : BridgeVlanInfo) : Bool :=
  info.flags &&& BridgeVlanFlags.RANGE_END != 0

def asBytes (order : ByteOrder) (info : BridgeVlanInfo) : List UInt8 :=
  order.toBytes 2 info.flags ++ order.toBytes 2 info.vid

def fromBytes (order : ByteOrder) (data : List UInt8) : Option BridgeVlanInfo :=
  if data.length < 4 then
    none
  else
    some
      { flags := order.ofBytes (data.take 2)
        vid := order.ofBytes ((data.drop 2).take 2) }

end BridgeVlanInfo

/-- One VLAN for the list of entries. -/
def entry (ifindex : Nat) (vid flags : Nat) : BridgeVlanEntry where
  ifindex := ifindex
  vid := vid
  flags := .fromRaw flags

/-- The loop of `parse_af_spec_vlans`, with the start of a range that has not
ended; it yields the entries it pushes. -/
def scanVlans (order : ByteOrder) (ifindex : Nat) :
    Option (Nat × Nat) → List (Nat × List UInt8) → List BridgeVlanEntry
  | none, [] => []
  | some (prevVid, prevFlags), [] => [entry ifindex prevVid prevFlags]
  | rangeStart, (attrType, payload) :: rest =>
      if attrType = bridgeAf.IFLA_BRIDGE_VLAN_INFO then
        match BridgeVlanInfo.fromBytes order payload with
        | none => scanVlans order ifindex rangeStart rest
        | some vlanInfo =>
            if vlanInfo.isRangeBegin then
              -- A range that never ended is taken for a single VLAN.
              let orphan :=
                match rangeStart with
                | some (prevVid, prevFlags) => [entry ifindex prevVid prevFlags]
                | none => []
              orphan ++ scanVlans order ifindex (some (vlanInfo.vid, vlanInfo.flags)) rest
            else if vlanInfo.isRangeEnd then
              let range :=
                match rangeStart with
                | some (startVid, startFlags) =>
                    (List.range' startVid (vlanInfo.vid + 1 - startVid)).map
                      fun vid => entry ifindex vid startFlags
                | none => []
              range ++ scanVlans order ifindex none rest
            else
              entry ifindex vlanInfo.vid vlanInfo.flags :: scanVlans order ifindex rangeStart rest
      else
        scanVlans order ifindex rangeStart rest

/-- `parse_af_spec_vlans`. -/
def parseAfSpecVlans (order : ByteOrder) (data : List UInt8) (ifindex : Nat) :
    List BridgeVlanEntry :=
  scanVlans order ifindex none (attrIter order data)

/-- The loop of both parsers over the attributes of a link. -/
def vlansOf (order : ByteOrder) (ifindex : Nat) (attrs : List (Nat × List UInt8)) :
    List BridgeVlanEntry :=
  attrs.flatMap fun (attrType, payload) =>
    if attrType = IflaAttr.AfSpec then parseAfSpecVlans order payload ifindex else []

variable (order : ByteOrder)

theorem vlansOf_cons (ifindex attrType : Nat) (payload : List UInt8)
    (rest : List (Nat × List UInt8)) :
    vlansOf order ifindex ((attrType, payload) :: rest) =
      (if attrType = IflaAttr.AfSpec then
        parseAfSpecVlans order payload ifindex
      else
        []) ++ vlansOf order ifindex rest :=
  flatMap_cons

theorem vlansOf_append (ifindex : Nat) (first second : List (Nat × List UInt8)) :
    vlansOf order ifindex (first ++ second) =
      vlansOf order ifindex first ++ vlansOf order ifindex second :=
  flatMap_append

/-- `parse_vlan_entries`, of the reply to a request. -/
def parseVlanEntries (order : ByteOrder) (data : List UInt8) (ifindex : Nat) :
    Except Error (List BridgeVlanEntry) :=
  if data.length < IfInfoMsg.SIZE then
    .ok []
  else
    .ok (vlansOf order ifindex (attrIter order (data.drop IfInfoMsg.SIZE)))

def messageVlans (order : ByteOrder) : Except Error Message → List BridgeVlanEntry
  | .error _ => []
  | .ok (_, payload) =>
      if payload.length < IfInfoMsg.SIZE then
        []
      else
        match IfInfoMsg.fromBytes order payload with
        | .error _ => []
        | .ok ifinfo => vlansOf order ifinfo.ifiIndex (attrIter order (payload.drop IfInfoMsg.SIZE))

/-- `parse_vlan_entries_from_dump`. -/
def parseVlanEntriesFromDump (order : ByteOrder) (data : List UInt8) :
    Except Error (List BridgeVlanEntry) :=
  .ok ((messageIter order data).flatMap (messageVlans order))

/-- The loop of `send_request` over the messages of a datagram: whether one of
them is for the request. -/
def checkReplies (order : ByteOrder) (seq : Nat) :
    Bool → List (Except Error Message) → Except Error Bool
  | foundSeq, [] => .ok foundSeq
  | foundSeq, .error _ :: rest => checkReplies order seq foundSeq rest
  | foundSeq, .ok (header, payload) :: rest =>
      if header.nlmsgSeq ≠ seq then
        checkReplies order seq foundSeq rest
      else
        match checkError order header payload with
        | some error => .error error
        | none => checkReplies order seq true rest

/-- `send_request_mutex`: the first datagram with a message for the request is
returned whole.  Without one the call waits. -/
def sendRequestMutex (order : ByteOrder) (seq : Nat) :
    List Datagram → Option (Except Error Datagram)
  | [] => none
  | response :: incoming =>
      match checkReplies order seq false (messageIter order response) with
      | .error error => some (.error error)
      | .ok true => some (.ok response)
      | .ok false => sendRequestMutex order seq incoming

/-- `get_bridge_vlans_by_index`, from the datagrams that arrive. -/
def getBridgeVlansByIndex (order : ByteOrder) (seq ifindex : Nat) (incoming : List Datagram) :
    Option (Except Error (List BridgeVlanEntry)) :=
  match sendRequestMutex order seq incoming with
  | none => none
  | some (.error error) => some (.error error)
  | some (.ok response) => some (parseVlanEntries order response ifindex)

/-- What `get_bridge_vlans_all_by_index` reads of a link. -/
structure LinkMessage where
  header : IfInfoMsg
  master : Option Nat

namespace LinkMessage

def ifindex (link : LinkMessage) : Nat :=
  link.header.ifiIndex

/-- One attribute of a link; only the master is read here. -/
def setAttr (order : ByteOrder) (link : LinkMessage) (attrType : Nat)
    (attrData : List UInt8) : LinkMessage :=
  if attrType = IflaAttr.Master ∧ attrData.length ≥ 4 then
    { link with master := some (order.ofBytes (attrData.take 4)) }
  else
    link

/-- The loop over the attributes, and the bytes that it leaves. -/
def parseAttrs (order : ByteOrder) : Nat → LinkMessage → List UInt8 → LinkMessage × List UInt8
  | 0, link, input => (link, input)
  | fuel + 1, link, input =>
      match NlAttr.fromBytes order input with
      | none => (link, input)
      | some attr =>
          let input := input.drop 4
          let payloadLen := attr.nlaLen - 4
          if attr.nlaLen < 4 ∨ input.length < payloadLen then
            (link, input)
          else
            let attrData := input.take payloadLen
            let input := input.drop payloadLen
            let padding := nlaAlign attr.nlaLen - attr.nlaLen
            let input := if input.length ≥ padding then input.drop padding else input
            parseAttrs order fuel (link.setAttr order attr.kind attrData) input

/-- `LinkMessage::from_bytes`; bytes left over are an error, whose text is left
out. -/
def fromBytes (order : ByteOrder) (data : List UInt8) : Option LinkMessage :=
  match IfInfoMsg.fromBytes order data with
  | .error _ => none
  | .ok header =>
      match parseAttrs order data.length { header := header, master := none }
          (data.drop IfInfoMsg.SIZE) with
      | (link, []) => some link
      | _ => none

end LinkMessage

/-- A collected response of `dump_typed`; one that does not parse is left
out. -/
def parseLink (order : ByteOrder) (response : List UInt8) : Option LinkMessage :=
  if response.length < NLMSG_HDRLEN then
    none
  else
    LinkMessage.fromBytes order (response.drop NLMSG_HDRLEN)

/-- `get_links`. -/
def getLinks (order : ByteOrder) (seq : Nat) (incoming : List Datagram) :
    Progress (List LinkMessage) :=
  match sendDumpMutex order seq incoming with
  | .running responses => .running (responses.filterMap (parseLink order))
  | .finished responses => .finished (responses.filterMap (parseLink order))
  | .failed error => .failed error

/-- The entries of one response of the dump that are the bridge's own. -/
def bridgeEntries (order : ByteOrder) (bridgeIdx : Nat)
    (response : List UInt8) : List BridgeVlanEntry :=
  match parseVlanEntriesFromDump order response with
  | .error _ => []
  | .ok msgEntries => msgEntries.filter fun entry => entry.ifindex = bridgeIdx

/-- `get_bridge_vlans_all_by_index`, from the datagrams of the VLAN dump and of
the link dump. -/
def getBridgeVlansAllByIndex (order : ByteOrder) (vlanSeq linkSeq bridgeIdx : Nat)
    (vlanIncoming linkIncoming : List Datagram) :
    Progress (List BridgeVlanEntry) :=
  match sendDumpMutex order vlanSeq vlanIncoming with
  | .running _ => .running []
  | .failed error => .failed error
  | .finished responses =>
      let entries := responses.flatMap (bridgeEntries order bridgeIdx)
      match getLinks order linkSeq linkIncoming with
      | .running _ => .running []
      | .failed error => .failed error
      | .finished links =>
          let portIndices :=
            (links.filter fun link => link.master = some bridgeIdx).map LinkMessage.ifindex
          .finished
            (entries.filter fun entry =>
              entry.ifindex = bridgeIdx || portIndices.contains entry.ifindex)

open Nftables

/-!
## The kernel's VLAN replies

The kernel keeps a table of VLANs for each link.  It sends each maximal run of
consecutive VLANs with equal flags as one entry or, from two VLANs on, as a
pair of entries that marks the ends of a range.  What is parsed from the
entries is the table.
-/

/-- The VLANs of a link, in ascending order. -/
structure VlanTable where
  vlans : List (Nat × BridgeVlanFlags)
  ascending : vlans.Pairwise fun vlan next => vlan.1 < next.1
  vids : ∀ vlan ∈ vlans, 1 ≤ vlan.1 ∧ vlan.1 ≤ 4094

theorem VlanTable.length_le (table : VlanTable) : table.vlans.length ≤ 4095 := by
  have distinct : (table.vlans.map Prod.fst).Nodup :=
    pairwise_map.mpr (table.ascending.imp Nat.ne_of_lt)
  have within : (table.vlans.map Prod.fst).toFinset ⊆ Finset.range 4095 := by
    intro vid member
    obtain ⟨vlan, inTable, isVid⟩ := mem_map.mp (mem_toFinset.mp member)
    have bounds := table.vids vlan inTable
    rw [Finset.mem_range]
    omega
  have counted := Finset.card_le_card within
  rw [toFinset_card_of_nodup distinct, length_map, Finset.card_range] at counted
  exact counted

namespace BridgeVlanFlags

/-- The kernel's flags of a VLAN. -/
def raw (flags : BridgeVlanFlags) : Nat :=
  (if flags.pvid then PVID else 0) + (if flags.untagged then UNTAGGED else 0)

variable (flags : BridgeVlanFlags)

theorem raw_lt : flags.raw < 8 := by
  rcases flags with ⟨_ | _, _ | _⟩ <;> decide

theorem fromRaw_raw : fromRaw flags.raw = flags := by
  rcases flags with ⟨_ | _, _ | _⟩ <;> rfl

theorem fromRaw_rangeBegin : fromRaw (flags.raw + RANGE_BEGIN) = flags := by
  rcases flags with ⟨_ | _, _ | _⟩ <;> rfl

theorem raw_marks : flags.raw &&& RANGE_BEGIN = 0 ∧ flags.raw &&& RANGE_END = 0 := by
  rcases flags with ⟨_ | _, _ | _⟩ <;> decide

theorem rangeBegin_marks : (flags.raw + RANGE_BEGIN) &&& RANGE_BEGIN ≠ 0 := by
  rcases flags with ⟨_ | _, _ | _⟩ <;> decide

theorem rangeEnd_marks : (flags.raw + RANGE_END) &&& RANGE_BEGIN = 0 ∧
      (flags.raw + RANGE_END) &&& RANGE_END ≠ 0 := by
  rcases flags with ⟨_ | _, _ | _⟩ <;> decide

end BridgeVlanFlags

/-- The entries for a run: one, or the two ends of a range. -/
def infosOf (run : Run BridgeVlanFlags) : List BridgeVlanInfo :=
  if run.first = run.last then
    [{ flags := run.label.raw, vid := run.first }]
  else
    [{ flags := run.label.raw + BridgeVlanFlags.RANGE_BEGIN
       vid := run.first },
      { flags := run.label.raw + BridgeVlanFlags.RANGE_END
        vid := run.last }]

/-- The entries for a table. -/
def VlanTable.infos (table : VlanTable) : List BridgeVlanInfo :=
  (runs table.vlans).flatMap infosOf

/-- Attributes of one type, one for each entry. -/
def infoAttrs (order : ByteOrder) : List BridgeVlanInfo → Attrs
  | [] => .nil
  | info :: rest => .leaf bridgeAf.IFLA_BRIDGE_VLAN_INFO (info.asBytes order) (infoAttrs order rest)

/-- What `parse_af_spec_vlans` reads back of a table. -/
def VlanTable.entries (table : VlanTable) (ifindex : Nat) : List BridgeVlanEntry :=
  table.vlans.map fun (vid, flags) => { ifindex := ifindex, vid := vid, flags := flags }

theorem infoBytes_length (info : BridgeVlanInfo) : (info.asBytes order).length = 4 := by
  simp [BridgeVlanInfo.asBytes]

theorem fromBytes_info (info : BridgeVlanInfo) (flagsFit : info.flags < 256 ^ 2)
    (vidFits : info.vid < 256 ^ 2) :
    BridgeVlanInfo.fromBytes order (info.asBytes order) = some info := by
  have long : ¬ (info.asBytes order).length < 4 := by
    rw [infoBytes_length]
    decide
  rw [BridgeVlanInfo.fromBytes, if_neg long, BridgeVlanInfo.asBytes, take_left'
    (order.toBytes_length 2 _), drop_left' (order.toBytes_length 2 _), take_of_length_le
    (Nat.le_of_eq (order.toBytes_length 2 _)), order.ofBytes_toBytes flagsFit, order.ofBytes_toBytes
    vidFits]

theorem infoAttrs_level (infos : List BridgeVlanInfo) :
    (infoAttrs order infos).level order =
      infos.map fun info =>
        (bridgeAf.IFLA_BRIDGE_VLAN_INFO, info.asBytes order) := by
  induction infos with
  | nil => rfl
  | cons info rest ih => exact congrArg (List.cons _) ih

theorem infoAttrs_fits (infos : List BridgeVlanInfo) : (infoAttrs order infos).Fits order := by
  induction infos with
  | nil => trivial
  | cons info rest ih =>
      refine ⟨by decide, ?_, ih⟩
      rw [infoBytes_length]
      decide

theorem infoAttrs_length (infos : List BridgeVlanInfo) :
    ((infoAttrs order infos).encode order).length = 8 * infos.length := by
  induction infos with
  | nil => rfl
  | cons info rest ih =>
      rw [infoAttrs, Attrs.encode, length_append, Attrs.attrBytes_length, infoBytes_length, ih,
        length_cons, nlaAlign]
      omega

theorem scanVlans_infosOf (ifindex : Nat) {run : Run BridgeVlanFlags}
    (lastFits : run.last < 256 ^ 2) (rest : List (Nat × List UInt8)) :
    scanVlans order ifindex none
        ((infosOf run).map (fun info =>
          (bridgeAf.IFLA_BRIDGE_VLAN_INFO, info.asBytes order)) ++ rest) =
      run.entries.map (fun (vid, flags) => { ifindex := ifindex, vid := vid, flags := flags }) ++
        scanVlans order ifindex none rest := by
  have ordered := run.ordered
  have small := run.label.raw_lt
  have firstFits : run.first < 256 ^ 2 := Nat.lt_of_le_of_lt ordered lastFits
  rw [infosOf]
  split
  · rename_i alone
    have read := fromBytes_info order { flags := run.label.raw, vid := run.first }
      (by simp only; omega) firstFits
    obtain ⟨notBegin, notEnd⟩ := run.label.raw_marks
    simp [scanVlans, read, BridgeVlanInfo.isRangeBegin, BridgeVlanInfo.isRangeEnd, notBegin, notEnd,
      entry, Run.entries, Run.keysBetween, ← alone, BridgeVlanFlags.fromRaw_raw]
  · have readBegin := fromBytes_info order
      { flags := run.label.raw + BridgeVlanFlags.RANGE_BEGIN
        vid := run.first }
      (by simp only [BridgeVlanFlags.RANGE_BEGIN]; omega) firstFits
    have readEnd := fromBytes_info order
      { flags := run.label.raw + BridgeVlanFlags.RANGE_END
        vid := run.last }
      (by simp only [BridgeVlanFlags.RANGE_END]; omega) lastFits
    have isBegin := run.label.rangeBegin_marks
    obtain ⟨notBegin, isEnd⟩ := run.label.rangeEnd_marks
    simp [scanVlans, readBegin, readEnd, BridgeVlanInfo.isRangeBegin, BridgeVlanInfo.isRangeEnd,
      isBegin, notBegin, isEnd, entry, Run.entries, Run.keysBetween,
      BridgeVlanFlags.fromRaw_rangeBegin, Function.comp_def]

theorem scanVlans_runs (ifindex : Nat) {grouped : List (Run BridgeVlanFlags)}
    (lastsFit : ∀ run ∈ grouped, run.last < 256 ^ 2) :
    scanVlans order ifindex none
        ((grouped.flatMap infosOf).map fun info =>
          (bridgeAf.IFLA_BRIDGE_VLAN_INFO, info.asBytes order)) =
      (grouped.flatMap Run.entries).map fun (vid, flags) =>
        { ifindex := ifindex, vid := vid, flags := flags } := by
  induction grouped with
  | nil => rfl
  | cons run rest ih =>
      obtain ⟨lastFits, restFit⟩ := forall_mem_cons.mp lastsFit
      rw [flatMap_cons, flatMap_cons, map_append, map_append, scanVlans_infosOf
        order ifindex lastFits, ih restFit]

theorem parseAfSpecVlans_infos (table : VlanTable) (ifindex : Nat) :
    parseAfSpecVlans order ((infoAttrs order table.infos).encode order) ifindex =
      table.entries ifindex := by
  rw [parseAfSpecVlans, Attrs.attrIter_encode order (infoAttrs_fits order table.infos),
    infoAttrs_level, VlanTable.infos, scanVlans_runs order ifindex, entries_runs]
  · rfl
  · intro run member
    have bounds := table.vids _ (mem_of_mem_runs member).2
    simp only at bounds
    omega

theorem infosOf_length_le (run : Run BridgeVlanFlags) :
    (infosOf run).length ≤ run.entries.length := by
  have ordered := run.ordered
  rw [infosOf, Run.entries, Run.keysBetween, length_map, length_range']
  split
  · rw [length_singleton]
    omega
  · simp only [length_cons, length_nil]
    omega

theorem VlanTable.infos_length_le (table : VlanTable) : table.infos.length ≤ 4095 := by
  have each : table.infos.length ≤ ((runs table.vlans).flatMap Run.entries).length := by
    rw [VlanTable.infos, length_flatMap, length_flatMap]
    exact sum_le_sum fun run _ => infosOf_length_le run
  rw [entries_runs] at each
  exact Nat.le_trans each table.length_le

end Nlink.BridgeVlan
