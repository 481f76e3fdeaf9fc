import Nlink.Srv6

namespace Nlink.Srv6

open Foundation Netlink List

/-!
# What the kernel makes of a written local route

The request's attributes reach the kernel as they were written.  The kernel
finds the attribute that the action needs for some actions only: the others
write another attribute, none, or a header that it does not accept.
-/

variable (order : ByteOrder)

/-- The attributes that an action writes besides its type. -/
def actionAttrs : Srv6Action → List Attribute
  | .endX nexthop => [(seg6Local.NH6, nexthop.octets)]
  | .endT table => [KernelAction.u32Attr order seg6Local.TABLE table]
  | .endDX4 (some nh) => [(seg6Local.NH4, nh.octets)]
  | .endDX6 (some nh) => [(seg6Local.NH6, nh.octets)]
  | .endDT4 table | .endDT6 table | .endDT46 table =>
      [KernelAction.u32Attr order seg6Local.TABLE table]
  | .endB6 segments | .endB6Encaps segments =>
      if segments.isEmpty then
        []
      else
        [(seg6Local.SRH, order.toBytes 4 seg6Mode.ENCAP ++
            Srv6LocalBuilder.buildSrh order segments)]
  | _ => []

def localAttrs (action : Srv6Action) : List Attribute :=
  (seg6Local.ACTION, order.toBytes 4 action.actionType) :: actionAttrs order action

/-- The output interface's attribute. -/
def oifAttrs (ifindex : Option (BitVec 32)) : List Attribute :=
  match ifindex with
  | some idx => [KernelAction.u32Attr order RtaAttr.OIF idx]
  | none => []

def routeAttrs (builder : Srv6LocalBuilder) (ifindex : Option (BitVec 32)) : List Attribute :=
  [(RtaAttr.DST, builder.sid.octets)] ++ oifAttrs order ifindex ++
    [(RtaAttr.ENCAP_TYPE, order.toBytes 2 lwtunnelEncap.SEG6_LOCAL)] ++
    [(RtaAttr.ENCAP ||| NLA_F_NESTED, encodeAll order (localAttrs order builder.action))]

theorem appends_writeAction (action : Srv6Action) :
    Appends (Srv6LocalBuilder.writeAction order action)
      (encodeAll order (actionAttrs order action)) := by
  cases action with
  | endX nexthop | endT table | endDT4 table | endDT6 table | endDT46 table =>
      exact appends_one order _ _
  | endDX4 nexthop | endDX6 nexthop =>
      cases nexthop with
      | none => exact Appends.id
      | some nh => exact appends_one order _ _
  | endB6 segments | endB6Encaps segments =>
      cases segments with
      | nil => exact Appends.id
      | cons segment rest => exact appends_one order _ _
  | _ => exact Appends.id

variable (builder : Srv6LocalBuilder)

theorem appends_writeTo (ifindex : Option (BitVec 32)) :
    Appends (fun msg => builder.writeTo order msg ifindex)
      (Srv6LocalBuilder.rtmsg.asBytes order ++
        encodeAll order (routeAttrs order builder ifindex)) := by
  have header : Appends (fun msg =>
        msg.appendBytes (Srv6LocalBuilder.rtmsg.asBytes order)) _ :=
    appends_header (by rw [RtMsg.asBytes_length]; decide)
  have dst := appends_one order RtaAttr.DST builder.sid.octets
  have oif : Appends (fun msg : MessageBuilder =>
        match ifindex with
        | some idx => msg.appendAttrU32 order RtaAttr.OIF idx.toNat
        | none => msg)
      (encodeAll order (oifAttrs order ifindex)) := by
    cases ifindex with
    | none => exact Appends.id
    | some idx => exact appends_one order _ _
  have encapType := appends_one order RtaAttr.ENCAP_TYPE (order.toBytes 2 lwtunnelEncap.SEG6_LOCAL)
  have action := Appends.compAll order
    (appends_one order seg6Local.ACTION (order.toBytes 4 builder.action.actionType))
    (appends_writeAction order builder.action)
  have encap := appends_nestAll order RtaAttr.ENCAP action
  exact header.comp
    (Appends.compAll order (Appends.compAll order (Appends.compAll order dst oif) encapType) encap)

theorem octets_flatMap_length (segments : List Ipv6Addr) :
    (segments.flatMap Ipv6Addr.octets).length = segments.length * 16 := by
  induction segments with
  | nil => rfl
  | cons segment rest ih =>
      rw [flatMap_cons, length_append, ih, Ipv6Addr.octets_length, length_cons, Nat.add_mul]
      omega

theorem buildSrh_length_le (segments : List Ipv6Addr) :
    (Srv6LocalBuilder.buildSrh order segments).length ≤ 8 + segments.length * 16 := by
  rw [Srv6LocalBuilder.buildSrh]
  split
  · exact Nat.zero_le _
  · rw [length_append, octets_flatMap_length, length_reverse,
      Ipv6SrHdr.asBytes, length_append, ByteOrder.toBytes_length]
    simp only [length_cons, length_nil]
    omega

/-- The action's list of segments, if any, fits a header. -/
def Srv6Action.IsShort : Srv6Action → Prop
  | .endB6 segments | .endB6Encaps segments => segments.length ≤ 127
  | _ => True

variable {action : Srv6Action}

theorem actionAttrs_short (isShort : action.IsShort) : (actionAttrs order action).length ≤ 1 ∧
      ∀ attr ∈ actionAttrs order action, attr.1 < NLA_F_NET_BYTEORDER ∧ attr.2.length ≤ 2060 := by
  have one : ∀ (attrType : Nat) (payload : List UInt8),
      attrType < NLA_F_NET_BYTEORDER → payload.length ≤ 2060 → [(attrType, payload)].length ≤ 1 ∧
          ∀ other ∈ [(attrType, payload)],
            other.1 < NLA_F_NET_BYTEORDER ∧ other.2.length ≤ 2060 := by
    intro attrType payload typeFits short
    exact ⟨Nat.le_refl 1, fun other member => (mem_singleton.mp member) ▸ ⟨typeFits, short⟩⟩
  have empty : ([] : List Attribute).length ≤ 1 ∧ ∀ other ∈ ([] : List Attribute),
        other.1 < NLA_F_NET_BYTEORDER ∧ other.2.length ≤ 2060 :=
    ⟨Nat.zero_le 1, forall_mem_nil _⟩
  have number : ∀ value : BitVec 32, (order.toBytes 4 value.toNat).length ≤ 2060 := by
    intro value
    rw [ByteOrder.toBytes_length]
    decide
  have segmentList : ∀ segments : List Ipv6Addr, segments.length ≤ 127 →
      (order.toBytes 4 seg6Mode.ENCAP ++
        Srv6LocalBuilder.buildSrh order segments).length ≤ 2060 := by
    intro segments few
    have bound := buildSrh_length_le order segments
    rw [length_append, ByteOrder.toBytes_length]
    omega
  cases action with
  | endX nexthop => exact one _ _ (by decide) (by simp)
  | endT table | endDT4 table | endDT6 table | endDT46 table =>
      exact one _ _ (by decide) (number table)
  | endDX4 nexthop | endDX6 nexthop =>
      cases nexthop with
      | none => exact empty
      | some nh => exact one _ _ (by decide) (by simp)
  | endB6 segments | endB6Encaps segments =>
      rw [actionAttrs]
      split
      · exact empty
      · exact one _ _ (by decide) (segmentList segments isShort)
  | _ => exact empty

theorem attrIter_localAttrs (isShort : action.IsShort) :
    attrIter order (encodeAll order (localAttrs order action)) = localAttrs order action ∧
      (encodeAll order (localAttrs order action)).length ≤ 4200 := by
  obtain ⟨few, short⟩ := actionAttrs_short order isShort
  have all : ∀ attr ∈ localAttrs order action,
      attr.1 < NLA_F_NET_BYTEORDER ∧ attr.2.length ≤ 2060 := by
    refine forall_mem_cons.mpr ⟨⟨?_, ?_⟩, short⟩
    · change seg6Local.ACTION < NLA_F_NET_BYTEORDER
      decide
    · rw [ByteOrder.toBytes_length]
      decide
  constructor
  · exact attrIter_encodeAll_plain order (fun attr member => (all attr member).1)
      fun attr member => by
        have bound := (all attr member).2
        rw [NLA_HDRLEN]
        omega
  · have bound := encodeAll_length_le order fun attr member => (all attr member).2
    rw [localAttrs, length_cons] at bound
    have product := Nat.mul_le_mul_right 2067 (Nat.succ_le_succ few)
    rw [localAttrs]
    omega

theorem attrIter_routeAttrs (ifindex : Option (BitVec 32)) (isShort : builder.action.IsShort) :
    attrIter order (encodeAll order (routeAttrs order builder ifindex)) =
      [(RtaAttr.DST, builder.sid.octets)] ++ oifAttrs order ifindex ++
        [(RtaAttr.ENCAP_TYPE, order.toBytes 2 lwtunnelEncap.SEG6_LOCAL)] ++
        [(RtaAttr.ENCAP, encodeAll order (localAttrs order builder.action))] := by
  have encapLength := (attrIter_localAttrs order isShort).2
  have fit : ∀ attr ∈ routeAttrs order builder ifindex, attr.Fits := by
    have typesFit : ∀ attr ∈ routeAttrs order builder ifindex, attr.1 < 256 ^ 2 := by
      cases ifindex <;> simp [routeAttrs, oifAttrs, KernelAction.u32Attr] <;>
        decide
    have lengthsFit : ∀ attr ∈ routeAttrs order builder ifindex, attr.2.length ≤ 4200 := by
      cases ifindex <;>
        simp [routeAttrs, oifAttrs, KernelAction.u32Attr, encapLength]
    intro attr member
    have bound := lengthsFit attr member
    exact ⟨typesFit attr member, by rw [NLA_HDRLEN]; omega⟩
  rw [attrIter_encodeAll order fit, routeAttrs, map_append,
    map_singleton, Attribute.masked_nested (by decide)]
  cases ifindex <;> rfl

/-- What the kernel makes of a request whose attributes fit. -/
theorem decode_written (ifindex : Option (BitVec 32)) (isShort : builder.action.IsShort) :
    KernelRoute.decode order
        (Srv6LocalBuilder.rtmsg.asBytes order ++
          encodeAll order (routeAttrs order builder ifindex)) =
      (KernelAction.decode order (localAttrs order builder.action)).map
        fun action =>
          { sid := builder.sid, oif := ifindex, action := action } := by
  have behind :
      (Srv6LocalBuilder.rtmsg.asBytes order ++
          encodeAll order (routeAttrs order builder ifindex)).drop
        RtMsg.SIZE = encodeAll order (routeAttrs order builder ifindex) :=
    drop_left' (RtMsg.asBytes_length ..)
  rw [KernelRoute.decode, RtMsg.fromBytes_asBytes, behind]
  simp only [attrIter_routeAttrs order builder ifindex isShort]
  generalize isEncap : encodeAll order (localAttrs order builder.action) = encap
  have sees : attrIter order encap = localAttrs order builder.action :=
    isEncap ▸ (attrIter_localAttrs order isShort).1
  have lookups : KernelAction.ipv6Of
            ([(RtaAttr.DST, builder.sid.octets)] ++ oifAttrs order ifindex ++
              [(RtaAttr.ENCAP_TYPE, order.toBytes 2 lwtunnelEncap.SEG6_LOCAL)] ++
              [(RtaAttr.ENCAP, encap)])
            RtaAttr.DST = some builder.sid ∧
        lastOf
            ([(RtaAttr.DST, builder.sid.octets)] ++ oifAttrs order ifindex ++
              [(RtaAttr.ENCAP_TYPE, order.toBytes 2 lwtunnelEncap.SEG6_LOCAL)] ++
              [(RtaAttr.ENCAP, encap)])
            RtaAttr.ENCAP_TYPE =
          some (order.toBytes 2 lwtunnelEncap.SEG6_LOCAL) ∧
        lastOf
            ([(RtaAttr.DST, builder.sid.octets)] ++ oifAttrs order ifindex ++
              [(RtaAttr.ENCAP_TYPE, order.toBytes 2 lwtunnelEncap.SEG6_LOCAL)] ++
              [(RtaAttr.ENCAP, encap)])
            RtaAttr.ENCAP = some encap ∧
        KernelAction.u32Of order
            ([(RtaAttr.DST, builder.sid.octets)] ++ oifAttrs order ifindex ++
              [(RtaAttr.ENCAP_TYPE, order.toBytes 2 lwtunnelEncap.SEG6_LOCAL)] ++
              [(RtaAttr.ENCAP, encap)])
            RtaAttr.OIF = ifindex := by
    cases ifindex <;>
      simp [KernelAction.ipv6Of, KernelAction.u32Of, lastOf, oifAttrs, KernelAction.u32Attr,
        RtaAttr.DST, RtaAttr.OIF, RtaAttr.ENCAP_TYPE, RtaAttr.ENCAP]
  obtain ⟨isSid, isType, isNest, isOif⟩ := lookups
  rw [isSid, isType, isNest, isOif]
  simp only [Option.bind_eq_bind, Option.bind_some, sees]
  cases KernelAction.decode order (localAttrs order builder.action) with
  | none => rfl
  | some action =>
      have typeBytes : (order.toBytes 2 lwtunnelEncap.SEG6_LOCAL).take 2 =
            order.toBytes 2 lwtunnelEncap.SEG6_LOCAL :=
        take_of_length_le (by simp)
      exact if_pos ⟨rfl, rfl, typeBytes⟩

/-- The actions whose attribute the builder writes as the kernel needs it. -/
def Srv6Action.IsWritten : Srv6Action → Prop
  | .endAction | .endX _ | .endT _ | .endDT6 _ => True
  | .endDX4 nexthop => nexthop.isSome
  | .endDX6 nexthop => nexthop.isSome
  | _ => False

theorem srh_decode_mode (rest : List UInt8) :
    Srh.decode order (order.toBytes 4 seg6Mode.ENCAP ++ rest) = none := by
  have modeType : ∀ hdr, Ipv6SrHdr.fromBytes order (order.toBytes 4 seg6Mode.ENCAP ++ rest) =
        some hdr → hdr.srType = 0 := by
    intro hdr isHeader
    rcases rest with _ | ⟨first, _ | ⟨second, _ | ⟨third, _ | ⟨fourth, rest⟩⟩⟩⟩
    all_goals
      cases order <;> cases isHeader
    all_goals rfl
  rw [Srh.decode]
  cases isHeader :
      Ipv6SrHdr.fromBytes order (order.toBytes 4 seg6Mode.ENCAP ++ rest) with
  | none => rfl
  | some hdr =>
      refine dif_neg fun valid => ?_
      rw [modeType hdr isHeader] at valid
      exact absurd valid.1 (by decide)

theorem actionType_localAttrs (action : Srv6Action) :
    KernelAction.u32Of order (localAttrs order action) seg6Local.ACTION =
      some (BitVec.ofNat 32 action.actionType) := by
  have small : action.actionType < 256 ^ 4 := by
    cases action with
    | unknown actionType => exact actionType.isLt
    | _ =>
        rw [Srv6Action.actionType]
        decide
  have own : lastOf (localAttrs order action) seg6Local.ACTION =
      some (order.toBytes 4 action.actionType) := by
    cases action with
    | endDX4 nexthop => cases nexthop <;> rfl
    | endDX6 nexthop => cases nexthop <;> rfl
    | endB6 segments => cases segments <;> rfl
    | endB6Encaps segments => cases segments <;> rfl
    | _ => rfl
  rw [KernelAction.u32Of, own]
  refine (if_pos (Nat.le_of_eq (ByteOrder.toBytes_length ..).symm)).trans ?_
  rw [readU32_toBytes_ofNat order small]

theorem srhOf_localAttrs (action : Srv6Action) (segments : List Ipv6Addr)
    (isList : action = .endB6 segments ∨ action = .endB6Encaps segments) :
    KernelAction.srhOf order (localAttrs order action) = none := by
  rcases isList with rfl | rfl <;>
    cases segments with
    | nil => rfl
    | cons segment rest => exact srh_decode_mode order _

/-- What the kernel makes of the attributes that an action writes. -/
theorem decode_localAttrs (action : Srv6Action) (buildable : action.isBuildable = true) :
    KernelAction.decode order (localAttrs order action) =
      match action with
      | .endAction => some .endAction
      | .endX nexthop => some (.endX nexthop)
      | .endT table => some (.endT table)
      | .endDT6 table => some (.endDT6 table)
      | .endDX4 (some nh) => some (.endDX4 nh)
      | .endDX6 (some nh) => some (.endDX6 nh)
      | _ => none := by
  rw [KernelAction.decode, actionType_localAttrs order]
  cases action with
  | endX nexthop =>
      have found : lastOf (localAttrs order (.endX nexthop)) seg6Local.NH6 = some nexthop.octets :=
        rfl
      exact congrArg (Option.map KernelAction.endX) (KernelAction.ipv6Of_of_lastOf found)
  | endT table =>
      exact congrArg (Option.map KernelAction.endT) (KernelAction.u32Of_of_lastOf order rfl)
  | endDX4 nexthop =>
      cases nexthop with
      | none => rfl
      | some nh =>
          have found : lastOf (localAttrs order (.endDX4 (some nh))) seg6Local.NH4 =
                some nh.octets :=
            rfl
          exact congrArg (Option.map KernelAction.endDX4) (KernelAction.ipv4Of_of_lastOf found)
  | endDX6 nexthop =>
      cases nexthop with
      | none => rfl
      | some nh =>
          have found : lastOf (localAttrs order (.endDX6 (some nh))) seg6Local.NH6 =
                some nh.octets :=
            rfl
          exact congrArg (Option.map KernelAction.endDX6) (KernelAction.ipv6Of_of_lastOf found)
  | endDT6 table =>
      have isTable : KernelAction.u32Of order (localAttrs order (.endDT6 table))
            seg6Local.TABLE = some table :=
        KernelAction.u32Of_of_lastOf order rfl
      have noVrf : KernelAction.u32Of order (localAttrs order (.endDT6 table))
            seg6Local.VRFTABLE = none :=
        rfl
      simp only [isTable, noVrf]
      rfl
  | endB6 segments =>
      exact congrArg (Option.map KernelAction.endB6) (srhOf_localAttrs order _ segments (.inl rfl))
  | endB6Encaps segments =>
      exact congrArg (Option.map KernelAction.endB6Encaps)
        (srhOf_localAttrs order _ segments (.inr rfl))
  | unknown actionType => cases buildable
  | _ => rfl

theorem isShort_of_held (held : KernelAction) : held.action.IsShort := by
  have few : ∀ srh : Srh, srh.segments.length ≤ 127 := fun srh => by
    have bound := srh.lengthFits
    omega
  cases held with
  | endB6 srh => exact few srh
  | endB6Encaps srh => exact few srh
  | _ => trivial

theorem decode_localAttrs_action (buildable : action.isBuildable = true) {held : KernelAction}
    (decoded : KernelAction.decode order (localAttrs order action) = some held) :
    held.action = action ∧ ∀ oif, held ≠ .endDX2 oif := by
  rw [decode_localAttrs order action buildable] at decoded
  split at decoded <;> cases decoded <;> exact ⟨rfl, fun _ => nofun⟩

theorem decode_localAttrs_isSome (buildable : action.isBuildable = true) :
    (∃ held, KernelAction.decode order (localAttrs order action) = some held) ↔
      action.IsWritten := by
  rw [decode_localAttrs order action buildable]
  cases action with
  | endDX4 nexthop | endDX6 nexthop => cases nexthop <;> simp [Srv6Action.IsWritten]
  | _ => simp [Srv6Action.IsWritten]

theorem decode_writeTo_iff (ifindex : Option (BitVec 32)) :
    (∃ route : KernelRoute, KernelRoute.decode order (Srv6LocalBuilder.rtmsg.asBytes order ++
              encodeAll order (routeAttrs order builder ifindex)) =
          some route ∧ route.Realizes builder ifindex) ↔
      builder.action.IsWritten := by
  rw [← decode_localAttrs_isSome order builder.buildable]
  constructor
  · rintro ⟨route, decoded, realizes⟩
    have isShort : builder.action.IsShort := realizes.sameAction ▸ isShort_of_held route.action
    rw [decode_written order builder ifindex isShort] at decoded
    obtain ⟨held, isHeld, _⟩ := Option.map_eq_some_iff.mp decoded
    exact ⟨held, isHeld⟩
  · rintro ⟨held, isHeld⟩
    obtain ⟨sameAction, notOutput⟩ := decode_localAttrs_action order builder.buildable isHeld
    have isShort : builder.action.IsShort := sameAction ▸ isShort_of_held held
    refine ⟨{ sid := builder.sid, oif := ifindex, action := held }, ?_,
      rfl, rfl, sameAction, fun oif isOutput => absurd isOutput (notOutput oif)⟩
    rw [decode_written order builder ifindex isShort, isHeld]
    rfl

/-!
## Local routes mean the same to the library and to the kernel

The parser reads the kernel's attributes back, except that it looks for a
routing table where the kernel has a VRF table, and for a segment routing
header behind a mode word that the kernel does not have.
-/

variable (order : ByteOrder)

/-- The kernel's actions that the parser gives back. -/
def KernelAction.ReadBack : KernelAction → Prop
  | .endDT4 vrftable | .endDT46 vrftable | .endDT6Vrf vrftable => vrftable = 0
  | .endB6 _ | .endB6Encaps _ => False
  | _ => True

theorem wholeSegments_length_le (segData : List UInt8) (numSegs : Nat) :
    (Srv6LocalRoute.wholeSegments segData numSegs).length ≤ numSegs ∧
      (Srv6LocalRoute.wholeSegments segData numSegs).length ≤ segData.length / 16 := by
  induction numSegs with
  | zero => exact ⟨Nat.le_refl 0, Nat.zero_le _⟩
  | succ numSegs ih =>
      obtain ⟨few, short⟩ := ih
      have last : Srv6LocalRoute.wholeSegments segData (numSegs + 1) =
            Srv6LocalRoute.wholeSegments segData numSegs ++
              (if numSegs * 16 + 16 ≤ segData.length then
                [Ipv6Addr.fromOctets ((segData.drop (numSegs * 16)).take 16)]
              else
                []) := by
        rw [Srv6LocalRoute.wholeSegments, List.range_succ,
          filterMap_append, ← Srv6LocalRoute.wholeSegments]
        congr 1
        by_cases whole : numSegs * 16 + 16 ≤ segData.length <;>
          simp [whole]
      rw [last, length_append]
      split
      · rw [length_singleton]
        omega
      · rw [length_nil]
        omega

theorem srh_bytes_length (srh : Srh) : (srh.bytes order).length = 8 + srh.segments.length * 16 := by
  rw [Srh.bytes, length_append, octets_flatMap_length, length_reverse, Ipv6SrHdr.asBytes,
    length_append, ByteOrder.toBytes_length]
  rfl

theorem parseLocal_srh (srh : Srh) (found : Parsing) (noneYet : found.srhSegments = []) :
    ∃ segments : List Ipv6Addr, segments ≠ srh.segments ∧ Srv6LocalRoute.parseLocal order found
          (seg6Local.SRH, srh.bytes order) =
        { found with srhSegments := segments } := by
  have nonEmpty := srh.nonEmpty
  have whole := srh_bytes_length order srh
  have long : seg6Local.SRH = seg6Local.SRH ∧ 12 ≤ (srh.bytes order).length := ⟨rfl, by omega⟩
  rw [show Srv6LocalRoute.parseLocal order found (seg6Local.SRH, srh.bytes order) = _ from
    if_pos long]
  cases Ipv6SrHdr.fromBytes order ((srh.bytes order).drop 4) with
  | none =>
      refine ⟨[], fun same => ?_, ?_⟩
      · rw [← same] at nonEmpty
        cases nonEmpty
      · rw [← noneYet]
  | some hdr =>
      refine ⟨_, fun same => ?_, rfl⟩
      have count := congrArg List.length same
      have bound := (wholeSegments_length_le (((srh.bytes order).drop 4).drop Ipv6SrHdr.SIZE)
        (hdr.firstSegment.toNat + 1)).2
      rw [noneYet, List.nil_append, length_reverse] at count
      rw [count, length_drop, length_drop, whole, Ipv6SrHdr.SIZE] at bound
      omega

/-- What is found before the encapsulation is read. -/
def outerFound (route : KernelRoute) : Parsing :=
  { Srv6LocalRoute.start with sid := route.sid, oif := route.oif }

/-- The action that the parser makes of the kernel's attributes, with the
output interface. -/
def localFound (route : KernelRoute) : Parsing :=
  (route.action.echoed order).foldl (Srv6LocalRoute.parseLocal order) (outerFound route)

section Attributes

variable (found : Parsing)

theorem parseLocal_action (actionType : BitVec 32) : Srv6LocalRoute.parseLocal order found
        (KernelAction.u32Attr order seg6Local.ACTION actionType) =
      { found with actionType := actionType } := by
  simp [Srv6LocalRoute.parseLocal, KernelAction.u32Attr]

theorem parseLocal_table (table : BitVec 32) : Srv6LocalRoute.parseLocal order found
        (KernelAction.u32Attr order seg6Local.TABLE table) =
      { found with table := some table } := by
  simp [Srv6LocalRoute.parseLocal, KernelAction.u32Attr, seg6Local.ACTION, seg6Local.TABLE]

theorem parseLocal_nh4 (nh4 : Ipv4Addr) :
    Srv6LocalRoute.parseLocal order found (seg6Local.NH4, nh4.octets) =
      { found with nh4 := some nh4 } := by
  simp [Srv6LocalRoute.parseLocal, seg6Local.ACTION, seg6Local.TABLE, seg6Local.NH4]

theorem parseLocal_nh6 (nh6 : Ipv6Addr) :
    Srv6LocalRoute.parseLocal order found (seg6Local.NH6, nh6.octets) =
      { found with nh6 := some nh6 } := by
  simp [Srv6LocalRoute.parseLocal, seg6Local.ACTION, seg6Local.TABLE, seg6Local.NH4, seg6Local.NH6]

theorem parseLocal_oif (oif : BitVec 32) : Srv6LocalRoute.parseLocal order found
        (KernelAction.u32Attr order seg6Local.OIF oif) =
      { found with oif := some oif } := by
  simp [Srv6LocalRoute.parseLocal, KernelAction.u32Attr, seg6Local.ACTION, seg6Local.TABLE,
    seg6Local.NH4, seg6Local.NH6, seg6Local.SRH, seg6Local.OIF]

theorem parseLocal_vrftable (vrftable : BitVec 32) : Srv6LocalRoute.parseLocal order found
        (KernelAction.u32Attr order seg6Local.VRFTABLE vrftable) =
      found :=
  rfl

end Attributes

/-- What the parser makes of the encapsulation. -/
theorem localFound_spec (route : KernelRoute)
    (sameOutput : ∀ oif, route.action = .endDX2 oif → route.oif = some oif) :
    (localFound order route).sid = route.sid ∧ (localFound order route).oif = route.oif ∧
      (Srv6LocalRoute.actionOf (localFound order route) = route.action.action ↔
        route.action.ReadBack) := by
  obtain ⟨sid, oif, action⟩ := route
  rw [localFound, KernelAction.echoed, foldl_cons, parseLocal_action]
  cases action with
  | endAction => exact ⟨rfl, rfl, iff_of_true rfl trivial⟩
  | endX nh6 | endDX6 nh6 =>
      rw [KernelAction.own, foldl_cons, parseLocal_nh6]
      exact ⟨rfl, rfl, iff_of_true rfl trivial⟩
  | endT table | endDT6 table =>
      rw [KernelAction.own, foldl_cons, parseLocal_table]
      exact ⟨rfl, rfl, iff_of_true rfl trivial⟩
  | endDX2 output =>
      rw [KernelAction.own, foldl_cons, parseLocal_oif]
      exact ⟨rfl, (sameOutput output rfl).symm, iff_of_true rfl trivial⟩
  | endDX4 nh4 =>
      rw [KernelAction.own, foldl_cons, parseLocal_nh4]
      exact ⟨rfl, rfl, iff_of_true rfl trivial⟩
  | endDT6Vrf vrftable =>
      rw [KernelAction.own, foldl_cons, parseLocal_vrftable]
      exact ⟨rfl, rfl, fun same => (Srv6Action.endDT6.inj same).symm,
        fun zero => congrArg Srv6Action.endDT6 zero.symm⟩
  | endDT4 vrftable =>
      rw [KernelAction.own, foldl_cons, parseLocal_vrftable]
      exact ⟨rfl, rfl, fun same => (Srv6Action.endDT4.inj same).symm,
        fun zero => congrArg Srv6Action.endDT4 zero.symm⟩
  | endDT46 vrftable =>
      rw [KernelAction.own, foldl_cons, parseLocal_vrftable]
      exact ⟨rfl, rfl, fun same => (Srv6Action.endDT46.inj same).symm,
        fun zero => congrArg Srv6Action.endDT46 zero.symm⟩
  | endB6 srh =>
      obtain ⟨segments, others, step⟩ := parseLocal_srh order srh
        { outerFound ⟨sid, oif, .endB6 srh⟩ with
          actionType := BitVec.ofNat 32 (KernelAction.endB6 srh).action.actionType } rfl
      rw [KernelAction.own, foldl_cons, step]
      exact ⟨rfl, rfl, iff_of_false (fun same => others (Srv6Action.endB6.inj same)) id⟩
  | endB6Encaps srh =>
      obtain ⟨segments, others, step⟩ := parseLocal_srh order srh
        { outerFound ⟨sid, oif, .endB6Encaps srh⟩ with
          actionType := BitVec.ofNat 32 (KernelAction.endB6Encaps srh).action.actionType } rfl
      rw [KernelAction.own, foldl_cons, step]
      exact ⟨rfl, rfl, iff_of_false (fun same => others (Srv6Action.endB6Encaps.inj same)) id⟩

theorem echoed_short (action : KernelAction) : (action.echoed order).length ≤ 2 ∧
      ∀ attr ∈ action.echoed order, attr.1 < NLA_F_NET_BYTEORDER ∧ attr.2.length ≤ 2060 := by
  have number : ∀ value : BitVec 32, (order.toBytes 4 value.toNat).length ≤ 2060 := by
    intro value
    rw [ByteOrder.toBytes_length]
    decide
  have header : ∀ srh : Srh, (srh.bytes order).length ≤ 2060 := by
    intro srh
    have bound := srh.lengthFits
    rw [srh_bytes_length]
    omega
  have one : ∀ (attrType : Nat) (payload : List UInt8),
      attrType < NLA_F_NET_BYTEORDER → payload.length ≤ 2060 → ∀ other ∈ [(attrType, payload)],
          other.1 < NLA_F_NET_BYTEORDER ∧ other.2.length ≤ 2060 := by
    intro attrType payload typeFits short other member
    exact (mem_singleton.mp member) ▸ ⟨typeFits, short⟩
  have own : ∀ attr ∈ action.own order, attr.1 < NLA_F_NET_BYTEORDER ∧ attr.2.length ≤ 2060 := by
    cases action with
    | endAction => exact forall_mem_nil _
    | endX nh6 | endDX6 nh6 | endDX4 nh4 => exact one _ _ (by decide) (by simp)
    | endB6 srh | endB6Encaps srh => exact one _ _ (by decide) (header srh)
    | _ => exact one _ _ (by decide) (number _)
  constructor
  · cases action <;> simp [KernelAction.echoed, KernelAction.own]
  · refine forall_mem_cons.mpr ⟨⟨?_, number _⟩, own⟩
    change seg6Local.ACTION < NLA_F_NET_BYTEORDER
    decide

theorem attrIter_echoed (action : KernelAction) :
    attrIter order (encodeAll order (action.echoed order)) = action.echoed order := by
  obtain ⟨_, short⟩ := echoed_short order action
  exact attrIter_encodeAll_plain order (fun attr member => (short attr member).1)
    fun attr member => by
      have bound := (short attr member).2
      rw [NLA_HDRLEN]
      omega

/-- The attributes that the parser of a route looks at. -/
def concerns (attr : Attribute) : Bool :=
  attr.1 ∈ [RtaAttr.DST, RtaAttr.IIF, RtaAttr.OIF, RtaAttr.ENCAP]

theorem foldl_concerns (attrs : List Attribute) (found : Parsing) :
    attrs.foldl (Srv6LocalRoute.parseAttr order) found =
      (attrs.filter concerns).foldl (Srv6LocalRoute.parseAttr order)
        found := by
  have skips : ∀ found attr, Srv6LocalRoute.parseAttr order found attr =
        if concerns attr then
          Srv6LocalRoute.parseAttr order found attr
        else
          found := by
    intro found attr
    cases isConcern : concerns attr with
    | true => rfl
    | false =>
        simp only [concerns, mem_cons, not_mem_nil, or_false,
          decide_eq_false_iff_not, not_or] at isConcern
        obtain ⟨notDst, notIif, notOif, notEncap⟩ := isConcern
        simp [Srv6LocalRoute.parseAttr, notDst, notIif, notOif, notEncap]
  rw [List.foldl_filter]
  exact congrArg (fun step => attrs.foldl step found)
    (funext fun found => funext fun attr => skips found attr)

/-- The parser finds what it makes of the encapsulation. -/
theorem parse_echoes {route : KernelRoute} {body : List UInt8} (echoes : route.Echoes order body) :
    ∃ found, Srv6LocalRoute.parse order body = .ok found ∧
      found.sid = (localFound order route).sid ∧
      found.oif = (localFound order route).oif ∧
      found.action = Srv6LocalRoute.actionOf (localFound order route) := by
  obtain ⟨rtmsg, attrs, rfl, sound, relevant⟩ := echoes.shape
  have sees : attrIter order (encodeAll order attrs) = attrs :=
    attrIter_encodeAll_plain order (fun attr member => (sound attr member).1)
      fun attr member => (sound attr member).2.2
  have behind : (rtmsg.asBytes order ++ encodeAll order attrs).drop RtMsg.SIZE =
        encodeAll order attrs :=
    drop_left' (RtMsg.asBytes_length ..)
  have dst : Srv6LocalRoute.parseAttr order Srv6LocalRoute.start (RtaAttr.DST, route.sid.octets) =
        { Srv6LocalRoute.start with sid := route.sid } := by
    simp [Srv6LocalRoute.parseAttr]
  have oif : (route.oifAttrs order).foldl (Srv6LocalRoute.parseAttr order)
          { Srv6LocalRoute.start with sid := route.sid } =
        outerFound route := by
    cases isOif : route.oif with
    | none =>
        rw [KernelRoute.oifAttrs, outerFound, isOif]
        rfl
    | some oif =>
        rw [KernelRoute.oifAttrs, outerFound, isOif]
        simp [Srv6LocalRoute.parseAttr, KernelAction.u32Attr, RtaAttr.DST, RtaAttr.OIF]
  have encap : Srv6LocalRoute.parseAttr order (outerFound route)
          (RtaAttr.ENCAP, encodeAll order (route.action.echoed order)) =
        localFound order route := by
    have nested : ∀ payload, Srv6LocalRoute.parseAttr order (outerFound route)
            (RtaAttr.ENCAP, payload) =
          (attrIter order payload).foldl (Srv6LocalRoute.parseLocal order) (outerFound route) :=
      fun _ => rfl
    rw [nested, attrIter_echoed, localFound]
  have walk : attrs.foldl (Srv6LocalRoute.parseAttr order) Srv6LocalRoute.start =
        localFound order route := by
    rw [foldl_concerns]
    change (attrs.filter fun attr => decide (attr.1 ∈ _)).foldl _ _ = _
    have first : [(RtaAttr.DST, route.sid.octets)].foldl
            (Srv6LocalRoute.parseAttr order) Srv6LocalRoute.start =
          { Srv6LocalRoute.start with sid := route.sid } :=
      dst
    rw [relevant, foldl_append, foldl_append, first, oif]
    exact encap
  rw [Srv6LocalRoute.parse, RtMsg.fromBytes_asBytes]
  simp only [behind, sees, walk]
  exact ⟨_, rfl, rfl, rfl, rfl⟩

/-- A request is taken as exactly its action where the action is written as
the kernel needs it, and the parser gives a route back where it knows the
kernel's attribute for the action. -/
theorem localSid_agrees_iff (builder : Srv6LocalBuilder) (ifindex : Option (BitVec 32)) :
    (∀ msg : MessageBuilder, 4 ∣ msg.buf.length →
      ((∃ route : KernelRoute, KernelRoute.decode order
              ((builder.writeTo order msg ifindex).buf.drop msg.buf.length) =
            some route ∧ route.Realizes builder ifindex) ↔
        builder.action.IsWritten)) ∧
      ∀ route : KernelRoute, route.Realizes builder ifindex → ∀ body, route.Echoes order body →
          ((∃ found, Srv6LocalRoute.parse order body = .ok found ∧
              found.sid = builder.sid ∧ found.oif = ifindex ∧
              found.action = builder.action) ↔
            route.action.ReadBack) := by
  constructor
  · intro msg aligned
    have written := (appends_writeTo order builder ifindex).appended msg aligned
    rw [written, drop_left]
    exact decode_writeTo_iff order builder ifindex
  · intro route realizes body echoes
    obtain ⟨found, parsed, isSid, isOif, isAction⟩ := parse_echoes order echoes
    obtain ⟨sameSid, sameOif, sameAction⟩ := localFound_spec order route fun oif isOutput => by
        rw [realizes.sameOif, realizes.sameOutput oif isOutput]
    rw [← sameAction, ← isAction, realizes.sameAction]
    constructor
    · rintro ⟨other, otherParsed, _, _, isRead⟩
      cases parsed.symm.trans otherParsed
      exact isRead
    · intro isRead
      exact ⟨found, parsed, by rw [isSid, sameSid, realizes.sameSid],
        by rw [isOif, sameOif, realizes.sameOif], isRead⟩

/-- The smallest dump message for a route. -/
def KernelRoute.echo (route : KernelRoute) : List UInt8 :=
  Srv6LocalBuilder.rtmsg.asBytes order ++ encodeAll order
      ([(RtaAttr.DST, route.sid.octets)] ++ route.oifAttrs order ++
        [(RtaAttr.ENCAP, encodeAll order (route.action.echoed order))])

theorem KernelRoute.echoes_echo (route : KernelRoute) : route.Echoes order (route.echo order) := by
  obtain ⟨few, short⟩ := echoed_short order route.action
  have bound := encodeAll_length_le order fun attr member => (short attr member).2
  have product := Nat.mul_le_mul_right 2067 few
  have encapShort : (encodeAll order (route.action.echoed order)).length ≤ 65531 := by omega
  refine ⟨_, _, rfl, ?_, ?_⟩
  · cases isOif : route.oif <;>
      simp [KernelRoute.oifAttrs, isOif, KernelAction.u32Attr, Attribute.Fits, RtaAttr.DST,
        RtaAttr.OIF, RtaAttr.ENCAP, NLA_F_NET_BYTEORDER, NLA_HDRLEN] <;>
      omega
  · cases isOif : route.oif <;>
      simp [KernelRoute.oifAttrs, isOif, KernelAction.u32Attr, RtaAttr.DST,
        RtaAttr.IIF, RtaAttr.OIF, RtaAttr.ENCAP]

/-- A builder for an action with a VRF table. -/
def dt4Builder : Srv6LocalBuilder where
  sid := 1
  action := .endDT4 100
  buildable := rfl

def dt4Route : KernelRoute where
  sid := 1
  oif := some 3
  action := .endDT4 100

/-- The kernel refuses the builder's request, and the parser does not give the
route back. -/
theorem dt4_disagrees : KernelRoute.decode .little
          ((dt4Builder.writeTo .little (MessageBuilder.new .little 24 5)
            (some 3)).buf.drop 16) = none ∧
      dt4Route.Realizes dt4Builder (some 3) ∧
      dt4Route.Echoes .little (dt4Route.echo .little) ∧
      Srv6LocalRoute.parse .little (dt4Route.echo .little) = .ok
          { sid := 1
            prefixLen := 128
            action := .endDT4 0
            oif := some 3
            iif := none
            protocol := 0 } := by
  refine ⟨by decide +kernel, ⟨rfl, rfl, rfl, fun _ => nofun⟩,
    dt4Route.echoes_echo .little, by decide +kernel⟩

end Nlink.Srv6
