import Nlink.Mpls

namespace Nlink.Mpls

open Foundation Netlink List

/-!
# Which MPLS requests the kernel takes

Routes and deletions are written with table zero, which the kernel refuses for
every label.  An outgoing stack has a time to live of 255 in its bottom word.
The parser reads a written route back as long as its labels have twenty bits.
-/

variable (order : ByteOrder)

/-- The label in a word that is written for a label. -/
def masked (label : BitVec 32) : MplsLabel where
  val := (MplsLabelEntry.new label).label

theorem masked_eq_iff (label : BitVec 32) : (masked label).val = label ↔ label.toNat ≤ 0xFFFFF := by
  have bound := label.isLt
  rw [← BitVec.toNat_inj, masked, MplsLabelEntry.new_label]
  omega

theorem bottom_label_eq (label : BitVec 32) (ttl : UInt8) :
    (MplsLabelEntry.bottom label ttl).label = (masked label).val := by
  apply BitVec.eq_of_toNat_eq
  rw [MplsLabelEntry.bottom_label, masked, MplsLabelEntry.new_label]

namespace MplsRoute

theorem outLabels_stackBytes (ttl : UInt8) (labels : List (BitVec 32)) :
    outLabels (stackBytes ttl labels) = labels.map masked := by
  rw [stackBytes]
  fun_induction stackWords ttl labels with
  | case1 => rfl
  | case2 label =>
      obtain ⟨b0, b1, b2, b3, bytes, readBack⟩ := (MplsLabelEntry.bottom label ttl).asBytes_eq
      rw [flatMap_singleton, bytes, outLabels, readBack]
      simp [bottom_label_eq]
  | case3 label next rest ih =>
      obtain ⟨b0, b1, b2, b3, bytes, readBack⟩ := (MplsLabelEntry.new label).asBytes_eq
      rw [flatMap_cons, bytes, cons_append, cons_append, cons_append,
        cons_append, List.nil_append, outLabels, readBack, ih]
      simp [masked]

theorem outLabels_length (payload : List UInt8) :
    4 * (outLabels payload).length ≤ payload.length := by
  fun_induction outLabels payload with
  | case1 b0 b1 b2 b3 rest word isWord ih =>
      simp only [length_cons]
      split
      · rw [length_nil]
        omega
      · omega
  | case2 b0 b1 b2 b3 rest noWord ih =>
      simp only [length_cons]
      omega
  | case3 => exact Nat.zero_le _

theorem viaOf_viaData (via : IpAddr) :
    viaOf order (MplsRouteBuilder.viaData order via) = some via := by
  have family {value : Nat} (addr : List UInt8) (fits : value < 256 ^ 2) :
      (readU16 order (order.toBytes 2 value ++ addr)).toNat = value := by
    rw [readU16, take_left' (ByteOrder.toBytes_length ..),
      ByteOrder.ofBytes_toBytes _ fits, BitVec.toNat_ofNat]
    exact Nat.mod_eq_of_lt fits
  cases via with
  | v4 addr =>
      rw [viaOf, MplsRouteBuilder.viaData, family _ (by decide)]
      simp [drop_left', AF_INET]
  | v6 addr =>
      rw [viaOf, MplsRouteBuilder.viaData, family _ (by decide)]
      simp [drop_left', AF_INET, AF_INET6]

/-- What the parser makes of a written route's attributes. -/
def ofBuilder (builder : MplsRouteBuilder) (ifindex : Option (BitVec 32))
    (protocol : UInt8) : MplsRoute where
  label := masked builder.label
  action := if builder.outLabels.isEmpty then .pop else .swap (builder.outLabels.map masked)
  oif := ifindex
  via := builder.via
  protocol := protocol

variable (builder : MplsRouteBuilder)

theorem foldl_routeAttrs (ifindex : Option (BitVec 32)) (protocol : UInt8) :
    (routeAttrs order builder ifindex).foldl (parseAttr order) (start protocol) =
      ofBuilder builder ifindex protocol := by
  have dst : parseAttr order (start protocol) (dstAttr builder.label) =
      { start protocol with label := masked builder.label } := by
    obtain ⟨b0, b1, b2, b3, bytes, readBack⟩ := (MplsLabelEntry.bottom builder.label 0).asBytes_eq
    rw [dstAttr, stackBytes_singleton, bytes, parseAttr, if_pos rfl, readBack]
    dsimp only
    rw [bottom_label_eq]
  have newdst (found : MplsRoute) : (newdstAttrs builder.outLabels).foldl (parseAttr order) found =
        { found with
          action :=
            if builder.outLabels.isEmpty then
              found.action
            else
              .swap (builder.outLabels.map masked) } := by
    cases isLabels : builder.outLabels with
    | nil => rfl
    | cons label rest =>
        change parseAttr order found (RtaAttr.NEWDST, stackBytes 255 (label :: rest)) = _
        rw [parseAttr, if_neg (show RtaAttr.NEWDST ≠ RtaAttr.DST by decide),
          if_pos rfl, outLabels_stackBytes]
        rfl
  have oif (found : MplsRoute) (noneYet : found.oif = none) :
      (oifAttrs order ifindex).foldl (parseAttr order) found = { found with oif := ifindex } := by
    cases ifindex with
    | none => exact congrArg (fun oif => ({ found with oif := oif } : MplsRoute)) noneYet
    | some idx =>
        have long : RtaAttr.OIF = RtaAttr.OIF ∧ 4 ≤ (order.toBytes 4 idx.toNat).length :=
          ⟨rfl, Nat.le_of_eq (ByteOrder.toBytes_length ..).symm⟩
        change parseAttr order found (RtaAttr.OIF, order.toBytes 4 idx.toNat) = _
        rw [parseAttr, if_neg (show RtaAttr.OIF ≠ RtaAttr.DST by decide), if_neg (show RtaAttr.OIF ≠
          RtaAttr.NEWDST by decide), if_pos long, readU32_toBytes]
  have via (found : MplsRoute) (noneYet : found.via = none) :
      (viaAttrs order builder.via).foldl (parseAttr order) found =
        { found with via := builder.via } := by
    cases builder.via with
    | none => exact congrArg (fun via => ({ found with via := via } : MplsRoute)) noneYet
    | some addr =>
        have long : RtaAttr.VIA = RtaAttr.VIA ∧
            6 ≤ (MplsRouteBuilder.viaData order addr).length := by
          refine ⟨rfl, ?_⟩
          cases addr <;> simp [MplsRouteBuilder.viaData]
        have notOif (payload : List UInt8) : ¬ (RtaAttr.VIA = RtaAttr.OIF ∧ 4 ≤ payload.length) :=
          fun both => absurd both.1 (by decide)
        change parseAttr order found (RtaAttr.VIA, MplsRouteBuilder.viaData order addr) = _
        rw [parseAttr, if_neg (show RtaAttr.VIA ≠ RtaAttr.DST by decide), if_neg (show RtaAttr.VIA ≠
          RtaAttr.NEWDST by decide), if_neg (notOif _), if_pos long, viaOf_viaData]
  rw [routeAttrs, foldl_append, foldl_append, foldl_append,
    foldl_cons, foldl_nil, dst, newdst, oif _ rfl, via _ rfl]
  rfl

def actionLabels : MplsAction → List MplsLabel
  | .pop => []
  | .swap labels => labels

theorem foldl_actionLabels {attrs : List Attribute}
    (fit : ∀ attr ∈ attrs, NLA_HDRLEN + attr.2.length ≤ 65535) (found : MplsRoute)
    (few : (actionLabels found.action).length ≤ 16382) :
    (actionLabels (attrs.foldl (parseAttr order) found).action).length ≤
      16382 := by
  induction attrs generalizing found with
  | nil => exact few
  | cons attr rest ih =>
      obtain ⟨attrFits, restFit⟩ := forall_mem_cons.mp fit
      refine ih restFit _ ?_
      have room := outLabels_length attr.2
      rw [NLA_HDRLEN] at attrFits
      rw [parseAttr]
      split
      · split
        · exact few
        · exact few
      · split
        · dsimp only
          split
          · exact few
          · change (outLabels attr.2).length ≤ 16382
            omega
        · split
          · exact few
          · split
            · split
              · exact few
              · exact few
            · exact few

/-- The route is what the builder asks for on an output interface. -/
structure Matches (route : MplsRoute) (builder : MplsRouteBuilder)
    (ifindex : Option (BitVec 32)) : Prop where
  sameLabel : route.label.val = builder.label
  sameAction : route.action =
      if builder.outLabels.isEmpty then .pop else .swap (builder.outLabels.map MplsLabel.mk)
  sameOif : route.oif = ifindex
  sameVia : route.via = builder.via

theorem ofBuilder_matches_iff (ifindex : Option (BitVec 32)) (protocol : UInt8) :
    (ofBuilder builder ifindex protocol).Matches builder ifindex ↔ builder.label.toNat ≤ 0xFFFFF ∧
        ∀ label ∈ builder.outLabels, label.toNat ≤ 0xFFFFF := by
  have each (labels : List (BitVec 32)) : labels.map masked = labels.map MplsLabel.mk ↔
        ∀ label ∈ labels, label.toNat ≤ 0xFFFFF := by
    rw [map_inj_left]
    refine forall₂_congr fun label _ => ?_
    rw [← masked_eq_iff]
    constructor
    · intro same
      rw [same]
    · exact congrArg MplsLabel.mk
  rw [← masked_eq_iff, ← each]
  constructor
  · intro same
    refine ⟨same.sameLabel, ?_⟩
    have sameAction := same.sameAction
    cases isLabels : builder.outLabels with
    | nil => rfl
    | cons label rest =>
        rw [ofBuilder, isLabels] at sameAction
        injection sameAction
  · rintro ⟨sameLabel, sameLabels⟩
    exact
      { sameLabel := sameLabel
        sameAction := by rw [ofBuilder, sameLabels]
        sameOif := rfl
        sameVia := rfl }

/-- A written route is read back if its labels have twenty bits and its stack
is not cut. -/
theorem parse_written_iff (ifindex : Option (BitVec 32)) :
    (∃ route, parse order (MplsRouteBuilder.rtmsg.asBytes order ++
              encodeAll order (routeAttrs order builder ifindex)) =
          .ok route ∧ route.Matches builder ifindex) ↔
      builder.label.toNat ≤ 0xFFFFF ∧ (∀ label ∈ builder.outLabels, label.toNat ≤ 0xFFFFF) ∧
        builder.outLabels.length ≤ 16382 := by
  have parsed : parse order (MplsRouteBuilder.rtmsg.asBytes order ++
            encodeAll order (routeAttrs order builder ifindex)) =
        .ok
          ((attrIter order (encodeAll order (routeAttrs order builder ifindex))).foldl
            (parseAttr order) (start 0)) := by
    rw [parse, RtMsg.fromBytes_asBytes, drop_left' (RtMsg.asBytes_length ..)]
    rfl
  by_cases short : builder.outLabels.length ≤ 16382
  · rw [parsed, attrIter_routeAttrs order ifindex short, foldl_routeAttrs]
    have matching := ofBuilder_matches_iff builder ifindex 0
    constructor
    · rintro ⟨route, isRoute, same⟩
      cases isRoute
      obtain ⟨labelFits, labelsFit⟩ := matching.mp same
      exact ⟨labelFits, labelsFit, short⟩
    · rintro ⟨labelFits, labelsFit, _⟩
      exact ⟨_, rfl, matching.mpr ⟨labelFits, labelsFit⟩⟩
  · rw [parsed]
    constructor
    · rintro ⟨route, isRoute, same⟩
      cases isRoute
      have room : ∀ attr ∈ attrIter order (encodeAll order (routeAttrs order builder ifindex)),
          NLA_HDRLEN + attr.2.length ≤ 65535 :=
        fun attr member => (attrIter_payload_le order member).1
      have few := foldl_actionLabels order room (start 0) (Nat.zero_le _)
      have nonEmpty : builder.outLabels.isEmpty = false := by
        cases isLabels : builder.outLabels with
        | nil =>
            rw [isLabels] at short
            exact absurd (Nat.zero_le _) short
        | cons label rest => rfl
      rw [same.sameAction, nonEmpty] at few
      change (builder.outLabels.map MplsLabel.mk).length ≤ 16382 at few
      rw [length_map] at few
      exact absurd few short
    · rintro ⟨_, _, few⟩
      exact absurd few short

end MplsRoute

namespace KernelMpls

theorem decodeRoute_of_table_zero {rtmsg : RtMsg} (tableZero : rtmsg.rtmTable = 0)
    (attrs : List UInt8) : decodeRoute order (rtmsg.asBytes order ++ attrs) = none := by
  have refused : ¬ HeaderAccepted rtmsg := by
    rintro ⟨_, _, isMain, _⟩
    rw [tableZero] at isMain
    cases isMain
  rw [decodeRoute, RtMsg.fromBytes_asBytes]
  exact if_neg refused

/-- The labels of a route are those asked for. -/
structure RouteLabels.Asked (found : RouteLabels) (label : BitVec 32)
    (newLabels : List (BitVec 32)) : Prop where
  sameLabel : Names [found.label] [label]
  sameNewLabels : Names found.newLabels newLabels

theorem routeLabels_length {data : List UInt8} {found : RouteLabels}
    (read : routeLabels (attrIter order data) = some found) : found.newLabels.length ≤ 16382 := by
  rw [routeLabels] at read
  split at read
  · cases read
    exact Nat.zero_le _
  · rename_i label payload isDst isNewdst
    obtain ⟨labels, accepted, isFound⟩ := Option.map_eq_some_iff.mp read
    cases isFound
    have room := (attrIter_payload_le order (mem_of_lastOf isNewdst)).1
    have count := stack_length accepted
    rw [NLA_HDRLEN] at room
    dsimp only at room ⊢
    omega
  · cases read

variable (builder : MplsRouteBuilder)

theorem lastOf_dst (ifindex : Option (BitVec 32)) :
    lastOf (routeAttrs order builder ifindex) RtaAttr.DST =
      some (stackBytes 0 [builder.label]) := by
  rw [routeAttrs, newdstAttrs]
  cases builder.outLabels <;> cases ifindex <;> cases builder.via <;> rfl

theorem lastOf_newdst (ifindex : Option (BitVec 32)) :
    lastOf (routeAttrs order builder ifindex) RtaAttr.NEWDST =
      if builder.outLabels.isEmpty then
        none
      else
        some (stackBytes 255 builder.outLabels) := by
  rw [routeAttrs, newdstAttrs]
  cases builder.outLabels <;> cases ifindex <;> cases builder.via <;> rfl

theorem stack_dst (label : BitVec 32) : stack (stackBytes 0 [label]) = some [label.setWidth 20] :=
  stack_stackBytes 0 [label]

theorem routeLabels_written_iff (ifindex : Option (BitVec 32)) :
    (∃ found, routeLabels (attrIter order (encodeAll order (routeAttrs order builder ifindex))) =
          some found ∧ found.Asked builder.label builder.outLabels) ↔
      builder.label.toNat ≤ 0xFFFFF ∧ builder.outLabels = [] := by
  by_cases short : builder.outLabels.length ≤ 16382
  · rw [attrIter_routeAttrs order ifindex short, routeLabels, lastOf_dst,
      lastOf_newdst, Option.bind_some, stack_dst]
    cases isLabels : builder.outLabels with
    | nil =>
        have named := @names_setWidth [builder.label]
        rw [map_singleton, forall_mem_singleton] at named
        constructor
        · rintro ⟨found, isFound, same⟩
          cases isFound
          exact ⟨named.mp same.sameLabel, rfl⟩
        · rintro ⟨labelFits, _⟩
          exact ⟨_, rfl, named.mpr labelFits, rfl⟩
    | cons label rest =>
        have refused : stack (stackBytes 255 (label :: rest)) = none :=
          (stack_stackBytes ..).trans (if_neg fun both => by cases both.2)
        constructor
        · rintro ⟨found, isFound, same⟩
          change (stack (stackBytes 255 (label :: rest))).map _ = _ at isFound
          rw [refused] at isFound
          cases isFound
        · rintro ⟨_, isNil⟩
          cases isNil
  · constructor
    · rintro ⟨found, isFound, same⟩
      have few := routeLabels_length order isFound
      have count := congrArg List.length same.sameNewLabels
      rw [length_map, length_map] at count
      exact absurd (count ▸ few) short
    · rintro ⟨_, isNil⟩
      rw [isNil] at short
      exact absurd (Nat.zero_le _) short

theorem routeLabels_deletion_iff (label : BitVec 32) :
    (∃ found, routeLabels (attrIter order (encodeAll order [dstAttr label])) =
          some found ∧ found.Asked label []) ↔
      label.toNat ≤ 0xFFFFF :=
  (routeLabels_written_iff order { label := label, outLabels := [], via := none } none).trans
    (and_iff_left rfl)

theorem names_newClamped (asked : List (BitVec 32)) : Names
        ((asked.map fun label => (MplsLabel.newClamped label).val).map (BitVec.setWidth 20))
        asked ↔
      ∀ label ∈ asked, label.toNat ≤ 0xFFFFF := by
  rw [Names, map_map, map_map, map_inj_left]
  refine forall₂_congr fun label _ => ?_
  rw [Function.comp_apply, Function.comp_apply, BitVec.toNat_setWidth, MplsLabel.newClamped]
  have most : mplsLabel.MAX.toNat = 0xFFFFF := rfl
  dsimp only
  split
  · omega
  · omega

/-- An encapsulation is taken, with the labels asked for, if it has none, or
all have twenty bits and the time to live is asked to be zero. -/
theorem decodeEncap_written_iff (calls : List MplsEncap.Call) {msg : MessageBuilder}
    (aligned : 4 ∣ msg.buf.length) :
    (∃ labels, decodeEncap order
            (attrIter order (((MplsEncap.build calls).writeTo order msg).buf.drop msg.buf.length)) =
          some labels ∧ Names labels (MplsEncap.asked calls)) ↔
      MplsEncap.asked calls = [] ∨ (∀ label ∈ MplsEncap.asked calls, label.toNat ≤ 0xFFFFF) ∧
          MplsEncap.askedTtl calls = some 0 ∧
          (MplsEncap.asked calls).length ≤ 16381 := by
  have isLabels := MplsEncap.build_labels calls
  have isPushed : (MplsEncap.build calls).pushed =
      (MplsEncap.asked calls).map fun label =>
        (MplsLabel.newClamped label).val := by
    rw [MplsEncap.pushed, isLabels, map_map]
    rfl
  by_cases nothing : MplsEncap.asked calls = []
  · have unwritten : (MplsEncap.build calls).writeTo order msg = msg := by
      rw [MplsEncap.writeTo, isLabels, nothing]
      rfl
    rw [unwritten, drop_length, attrIter_of_none rfl, nothing]
    exact ⟨fun _ => .inl rfl, fun _ => ⟨[], rfl, rfl⟩⟩
  · have labelled : (MplsEncap.build calls).labels ≠ [] := by
      rw [isLabels]
      exact fun isNil => nothing (map_eq_nil_iff.mp isNil)
    have written := (MplsEncap.appends_writeTo order labelled).appended msg aligned
    rw [written, drop_left]
    by_cases short : (MplsEncap.asked calls).length ≤ 16381
    · rw [MplsEncap.decodeEncap_encapAttrs order (by rwa [isPushed, length_map]),
        stack_stackBytes, isPushed, MplsEncap.build_ttl]
      have hasLabels :
          ((MplsEncap.asked calls).map fun label =>
            (MplsLabel.newClamped label).val) ≠ [] :=
        fun isNil => nothing (map_eq_nil_iff.mp isNil)
      have isZero : (MplsEncap.askedTtl calls).getD 255 = 0 ↔
          MplsEncap.askedTtl calls = some 0 := by
        cases MplsEncap.askedTtl calls with
        | none => exact iff_of_false (by decide) (by decide)
        | some ttl => exact Option.some_inj.symm
      by_cases noTtl : MplsEncap.askedTtl calls = some 0
      · rw [if_pos ⟨hasLabels, isZero.mpr noTtl⟩]
        constructor
        · rintro ⟨labels, isFound, same⟩
          cases isFound
          exact .inr ⟨(names_newClamped _).mp same, noTtl, short⟩
        · rintro (isNil | ⟨fit, _, _⟩)
          · exact absurd isNil nothing
          · exact ⟨_, rfl, (names_newClamped _).mpr fit⟩
      · rw [if_neg fun both => noTtl (isZero.mp both.2)]
        constructor
        · rintro ⟨labels, isFound, _⟩
          cases isFound
        · rintro (isNil | ⟨_, isTtl, _⟩)
          · exact absurd isNil nothing
          · exact absurd isTtl noTtl
    · constructor
      · rintro ⟨labels, isFound, same⟩
        have few := MplsEncap.decodeEncap_length order isFound
        have count := congrArg List.length same
        rw [length_map, length_map] at count
        exact absurd (count ▸ few) short
      · rintro (isNil | ⟨_, _, few⟩)
        · exact absurd isNil nothing
        · exact absurd few short

end KernelMpls

/-- What the kernel makes of requests, and the parser of routes: a route and a
deletion are always refused, whatever their labels; their labels, an
encapsulation and a parsed route are right under the conditions given. -/
theorem mpls_agrees_iff (msg : MessageBuilder) (aligned : 4 ∣ msg.buf.length) :
    (∀ (builder : MplsRouteBuilder) (ifindex : Option (BitVec 32)),
      ∃ body, (builder.writeTo order msg ifindex).buf = msg.buf ++ body ∧
        KernelMpls.decodeRoute order body = none ∧
        ((∃ found, KernelMpls.routeLabels (attrIter order (body.drop RtMsg.SIZE)) = some found ∧
              found.Asked builder.label builder.outLabels) ↔
          builder.label.toNat ≤ 0xFFFFF ∧ builder.outLabels = []) ∧
        ((∃ route, MplsRoute.parse order body = .ok route ∧ route.Matches builder ifindex) ↔
          builder.label.toNat ≤ 0xFFFFF ∧ (∀ label ∈ builder.outLabels, label.toNat ≤ 0xFFFFF) ∧
            builder.outLabels.length ≤ 16382)) ∧
    (∀ label : BitVec 32, ∃ body, (delMplsRoute order label msg).buf = msg.buf ++ body ∧
        KernelMpls.decodeRoute order body = none ∧
        ((∃ found, KernelMpls.routeLabels (attrIter order (body.drop RtMsg.SIZE)) = some found ∧
              found.Asked label []) ↔
          label.toNat ≤ 0xFFFFF)) ∧
    ∀ calls : List MplsEncap.Call,
      (∃ labels, KernelMpls.decodeEncap order (attrIter order
                (((MplsEncap.build calls).writeTo order msg).buf.drop msg.buf.length)) =
            some labels ∧ KernelMpls.Names labels (MplsEncap.asked calls)) ↔
        MplsEncap.asked calls = [] ∨ (∀ label ∈ MplsEncap.asked calls, label.toNat ≤ 0xFFFFF) ∧
            MplsEncap.askedTtl calls = some 0 ∧
            (MplsEncap.asked calls).length ≤ 16381 := by
  refine ⟨fun builder ifindex => ?_, fun label => ?_, fun calls => ?_⟩
  · refine ⟨_, (appends_writeTo order builder ifindex).appended msg aligned,
      KernelMpls.decodeRoute_of_table_zero order rfl _, ?_,
      MplsRoute.parse_written_iff order builder ifindex⟩
    rw [drop_left' (RtMsg.asBytes_length ..)]
    exact KernelMpls.routeLabels_written_iff order builder ifindex
  · refine ⟨_, (appends_delMplsRoute order label).appended msg aligned,
      KernelMpls.decodeRoute_of_table_zero order rfl _, ?_⟩
    rw [drop_left' (RtMsg.asBytes_length ..)]
    exact KernelMpls.routeLabels_deletion_iff order label
  · exact KernelMpls.decodeEncap_written_iff order calls aligned

/-- The theorem on a message with a header only. -/
theorem mpls_agrees_new : 4 ∣ (MessageBuilder.new .little 24 5).buf.length ∧
      ((∃ labels, KernelMpls.decodeEncap .little (attrIter .little
                (((MplsEncap.build [.label 100, .ttl 0]).writeTo .little
                  (.new .little 24 5)).buf.drop (MessageBuilder.new .little 24 5).buf.length)) =
            some labels ∧ KernelMpls.Names labels [100]) ↔
        MplsEncap.asked [.label 100, .ttl 0] = [] ∨
          (∀ label ∈ MplsEncap.asked [.label 100, .ttl 0], label.toNat ≤ 0xFFFFF) ∧
            MplsEncap.askedTtl [.label 100, .ttl 0] = some 0 ∧
            (MplsEncap.asked [.label 100, .ttl 0]).length ≤ 16381) := by
  have aligned : 4 ∣ (MessageBuilder.new .little 24 5).buf.length := by decide
  exact ⟨aligned, (mpls_agrees_iff .little _ aligned).2.2 [.label 100, .ttl 0]⟩

/-- A route that pops label 100, as the builder writes it, is refused. -/
theorem pop_route_refused : KernelMpls.decodeRoute .little
        ((MplsRouteBuilder.writeTo .little { label := 100, outLabels := [], via := none }
            (.new .little 24 1541) (some 2)).buf.drop
          (MessageBuilder.new .little 24 1541).buf.length) = none ∧
      MplsRouteBuilder.rtmsg.rtmTable ≠ RT_TABLE_MAIN := by
  decide +kernel

end Nlink.Mpls
