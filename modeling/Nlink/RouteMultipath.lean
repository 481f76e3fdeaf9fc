import Nlink.NetworkDiff
import Nlink.Mpls
import Nlink.RouteMessage
import Nlink.Srv6
import Nlink.TunnelLinks

namespace Nlink.Route

open Foundation Netlink Neighbor List
open Nlink.Addr (IpAddr)
open Nlink.Network (RouteType)
open Nftables (Attrs)
open Nlink.TunnelLinks (InterfaceRef)

/-!
# Routes over several next hops

A route is added with the next hops it was given, each with its gateway.  The
interfaces are resolved first, and matched with the next hops by position.
-/

inductive RouteScope where
  | universe
  | site
  | link
  | host
  | nowhere

def RouteScope.toU8 : RouteScope → UInt8
  | .universe => 0
  | .site => 200
  | .link => 253
  | .host => 254
  | .nowhere => 255

/-- The number of a type; the types are listed in the order of their numbers. -/
def routeTypeToU8 (routeType : RouteType) : UInt8 :=
  UInt8.ofNat routeType.ctorIdx

/-- A next hop as its builder makes it: with a weight, and with one gateway at
most. -/
structure NextHop where
  gatewayV4 : Option Ipv4Addr
  gatewayV6 : Option Ipv6Addr
  dev : Option InterfaceRef
  weight : BitVec 8
  flags : BitVec 8
  oneGateway : gatewayV4 = none ∨ gatewayV6 = none
  weighted : weight ≠ 0

namespace NextHop

def new : NextHop where
  gatewayV4 := none
  gatewayV6 := none
  dev := none
  weight := 1
  flags := 0
  oneGateway := .inl rfl
  weighted := by decide

def withGatewayV4 (nh : NextHop) (addr : Ipv4Addr) : NextHop :=
  { nh with gatewayV4 := some addr, gatewayV6 := none, oneGateway := .inr rfl }

def withGatewayV6 (nh : NextHop) (addr : Ipv6Addr) : NextHop :=
  { nh with gatewayV6 := some addr, gatewayV4 := none, oneGateway := .inl rfl }

def withDev (nh : NextHop) (dev : InterfaceRef) : NextHop :=
  { nh with dev := some dev }

def gateway (nh : NextHop) : Option IpAddr :=
  (nh.gatewayV4.map .v4).or (nh.gatewayV6.map .v6)

end NextHop

structure RouteMetrics where
  mtu : Option (BitVec 32)
  advmss : Option (BitVec 32)
  window : Option (BitVec 32)
  rtt : Option (BitVec 32)
  rttvar : Option (BitVec 32)
  ssthresh : Option (BitVec 32)
  cwnd : Option (BitVec 32)
  initcwnd : Option (BitVec 32)
  initrwnd : Option (BitVec 32)
  hoplimit : Option (BitVec 32)
  rtoMin : Option (BitVec 32)
  quickack : Option (BitVec 32)
  reordering : Option (BitVec 32)
  features : Option (BitVec 32)

/-- The metrics with their types, in the order in which they are written. -/
def RouteMetrics.entries (metrics : RouteMetrics) : List (Nat × Option (BitVec 32)) :=
  [(2, metrics.mtu), (8, metrics.advmss), (3, metrics.window), (4, metrics.rtt),
    (5, metrics.rttvar), (6, metrics.ssthresh), (7, metrics.cwnd), (11, metrics.initcwnd),
    (14, metrics.initrwnd), (10, metrics.hoplimit), (13, metrics.rtoMin), (15, metrics.quickack),
    (9, metrics.reordering), (12, metrics.features)]

def RouteMetrics.hasAny (metrics : RouteMetrics) : Bool :=
  metrics.entries.any fun entry => entry.2.isSome

inductive Srv6Mode where
  | inline
  | encap
  | l2Encap
  | encapRed
  | l2EncapRed

def Srv6Mode.toU32 : Srv6Mode → BitVec 32
  | .inline => 0
  | .encap => 1
  | .l2Encap => 2
  | .encapRed => 3
  | .l2EncapRed => 4

structure Srv6Encap where
  mode : Srv6Mode
  segments : List Ipv6Addr

/-- A route with addresses of one family.  The protocol is its number. -/
structure IpRoute (Addr : Type) where
  destination : Addr
  prefixLen : UInt8
  gateway : Option Addr
  prefsrc : Option Addr
  dev : Option InterfaceRef
  routeType : RouteType
  protocol : UInt8
  scope : Option RouteScope
  table : BitVec 32
  priority : Option (BitVec 32)
  metrics : Option RouteMetrics
  mark : Option (BitVec 32)
  multipath : Option (List NextHop)
  nexthopId : Option (BitVec 32)
  mplsEncap : Option Mpls.MplsEncap
  srv6Encap : Option Srv6Encap

abbrev Ipv4Route := IpRoute Ipv4Addr

structure Ipv6Route extends IpRoute Ipv6Addr where
  pref : Option (BitVec 8)

structure ResolvedRouteInterfaces where
  oif : Option (BitVec 32)
  multipath : List (Option (BitVec 32))

/-- `determine_scope` of either family, from the scope of the types that only one
of them names. -/
def IpRoute.determineScope {Addr : Type} (route : IpRoute Addr) (named : RouteType → RouteScope) :
    RouteScope :=
  match route.scope with
  | some scope => scope
  | none =>
      match route.routeType with
      | .local => .host
      | .unicast | .unspec =>
          if route.gateway.isSome || route.multipath.isSome || route.nexthopId.isSome then
            .universe
          else
            .link
      | routeType => named routeType

/-- The scopes that only a route of the first family knows. -/
def scopeV4 : RouteType → RouteScope
  | .nat => .host
  | .broadcast | .multicast | .anycast => .link
  | _ => .universe

def scopeV6 : RouteType → RouteScope
  | _ => .universe

section Code

variable (order : ByteOrder)

/-- `write_multipath_v4` and `write_multipath_v6` up to the attribute, with the
gateway of the family. -/
def multipathData (own : NextHop → Option IpAddr) (nexthops : List NextHop)
    (resolvedIndices : List (Option (BitVec 32))) : List UInt8 :=
  nexthops.zipIdx.flatMap fun (nh, i) =>
    let ifindex := resolvedIndices[i]?.join.getD 0
    let nhLen := 8 + (own nh).elim 0 fun gw => 4 + (octets gw).length
    (RtNexthop.layout order).write ⟨.ofNat 16 nhLen, nh.flags, saturatingPred nh.weight, ifindex⟩ ++
      (own nh).elim [] fun gw =>
        order.toBytes 2 (4 + (octets gw).length) ++ order.toBytes 2 attrIds.RTA_GATEWAY ++ octets gw

/-- `RouteMetrics::write_to`. -/
def RouteMetrics.writer (metrics : RouteMetrics) : Writer order :=
  .nest 8 (.all (metrics.entries.map fun (attrType, value) =>
    .whenSome value fun value => .u32 attrType value))

/-- `MplsEncap::write_to`. -/
def mplsWriter (encap : Mpls.MplsEncap) : Writer order :=
  if labelled : encap.labels ≠ [] then
    ⟨encap.writeTo order, encap.encapAttrs order, Mpls.MplsEncap.appends_writeTo order labelled⟩
  else
    .nothing

/-- `Srv6Encap::write_to`. -/
def Srv6Encap.writer (encap : Srv6Encap) : Writer order :=
  .when (!encap.segments.isEmpty) <| .all [
    .u16 RtaAttr.ENCAP_TYPE 5,
    .nest RtaAttr.ENCAP (.attr 1 (order.toBytes 4 encap.mode.toU32.toNat ++
      Srv6.Srv6LocalBuilder.buildSrh order encap.segments))]

/-- What `write_add` of either family appends behind the header: with the addresses'
bytes, the preference, and the gateway of a next hop that is of the family. -/
def IpRoute.writer {Addr : Type} (octets : Addr → List UInt8) (own : NextHop → Option IpAddr)
    (pref : Option (BitVec 8)) (route : IpRoute Addr) (interfaces : ResolvedRouteInterfaces) :
    Writer order :=
  .all [
    .when (0 < route.prefixLen) (.attr 1 (octets route.destination)),
    .whenSome route.gateway fun gw => .attr 5 (octets gw),
    .whenSome route.prefsrc fun src => .attr 7 (octets src),
    .whenSome interfaces.oif fun ifindex => .u32 4 ifindex,
    .when (255 < route.table) (.u32 15 route.table),
    .whenSome route.priority fun prio => .u32 6 prio,
    .whenSome route.mark fun mark => .u32 16 mark,
    .whenSome pref fun pref => .u8 20 pref,
    .whenSome route.metrics fun metrics => .when metrics.hasAny (metrics.writer order),
    .whenSome route.multipath fun nexthops =>
      .attr attrIds.RTA_MULTIPATH (multipathData order own nexthops interfaces.multipath),
    .whenSome route.nexthopId fun nhId => .u32 30 nhId,
    .whenSome route.mplsEncap fun encap => mplsWriter order encap,
    .whenSome route.srv6Encap fun encap => encap.writer order]

/-- The header that `write_add` of either family writes. -/
def IpRoute.header {Addr : Type} (family : UInt8) (named : RouteType → RouteScope)
    (route : IpRoute Addr) : RtMsg :=
  { RtMsg.new with
    rtmFamily := family
    rtmDstLen := route.prefixLen
    rtmTable := if 255 < route.table then 0 else UInt8.ofNat route.table.toNat
    rtmProtocol := route.protocol
    rtmScope := (route.determineScope named).toU8
    rtmType := routeTypeToU8 route.routeType }

/-- What is appended for a route of the first family. -/
def ipv4Writer (route : Ipv4Route) (interfaces : ResolvedRouteInterfaces) : Writer order :=
  route.writer order Ipv4Addr.octets (fun nh => nh.gatewayV4.map .v4) none interfaces

/-- What is appended for a route of the second family. -/
def ipv6Writer (route : Ipv6Route) (interfaces : ResolvedRouteInterfaces) : Writer order :=
  route.toIpRoute.writer order Ipv6Addr.octets (fun nh => nh.gatewayV6.map .v6) route.pref
    interfaces

/-- `resolve_route_interfaces`, with how one interface is resolved. -/
def resolveRouteInterfaces (resolve : InterfaceRef → Except Error (BitVec 32))
    (dev : Option InterfaceRef) (multipath : Option (List NextHop)) :
    Except Error ResolvedRouteInterfaces := do
  let oif ← dev.mapM resolve
  let multipath ← ((multipath.getD []).map NextHop.dev).mapM fun ref => ref.mapM resolve
  return { oif, multipath }

/-- `add_route`, up to the message that is sent: RTM_NEWROUTE, as a request that is
acknowledged and creates. -/
def addRoute (resolve : InterfaceRef → Except Error (BitVec 32)) (dev : Option InterfaceRef)
    (multipath : Option (List NextHop)) (header : RtMsg)
    (writer : ResolvedRouteInterfaces → Writer order) : Except Error MessageBuilder := do
  let interfaces ← resolveRouteInterfaces resolve dev multipath
  return (writer interfaces).write
    ((MessageBuilder.new order 24 0x605).appendBytes (header.asBytes order))

/-- `add_route` of an `Ipv4Route`. -/
def addIpv4Route (resolve : InterfaceRef → Except Error (BitVec 32)) (route : Ipv4Route) :
    Except Error MessageBuilder :=
  addRoute order resolve route.dev route.multipath (route.header 2 scopeV4) (ipv4Writer order route)

/-- `add_route` of an `Ipv6Route`. -/
def addIpv6Route (resolve : InterfaceRef → Except Error (BitVec 32)) (route : Ipv6Route) :
    Except Error MessageBuilder :=
  addRoute order resolve route.dev route.multipath (route.toIpRoute.header 10 scopeV6)
    (ipv6Writer order route)

end Code

/-!
## What is written
-/

section Installed

variable (order : ByteOrder) (resolve : InterfaceRef → Except Error (BitVec 32))

/-- A next hop that is parsed is the one that was declared. -/
structure Declares (nh : NextHop) (parsed : ParsedNextHop) : Prop where
  gateway : parsed.gateway = nh.gateway
  weight : parsed.weight = nh.weight
  flags : parsed.flags = nh.flags
  ifindex : match nh.dev with
    | some dev => resolve dev = .ok parsed.ifindex
    | none => parsed.ifindex = 0

/-- The route is refused, or the chain in its message is parsed as the next hops
that were declared. -/
def Installed (family : BitVec 8) (nexthops : List NextHop)
    (added : Except Error MessageBuilder) : Prop :=
  match added with
  | .error _ => True
  | .ok request =>
      ∃ chain, lastOf (attrIter order (request.buf.drop (NLMSG_HDRLEN + RtMsg.SIZE)))
          attrIds.RTA_MULTIPATH = some chain ∧
        List.Forall₂ (Declares resolve) nexthops (parseMultipath order chain family)

/-- Every interface of a route is resolved. -/
def Resolves (dev : Option InterfaceRef) (nexthops : List NextHop) : Prop :=
  (∀ ref ∈ dev, ∃ ifindex, resolve ref = .ok ifindex) ∧
    ∀ nh ∈ nexthops, ∀ ref ∈ nh.dev, ∃ ifindex, resolve ref = .ok ifindex

variable {resolve}

theorem mapM_eq_ok_iff {α β : Type} {step : α → Except Error β} {items : List α}
    {results : List β} : items.mapM step = .ok results ↔
      List.Forall₂ (fun item result => step item = .ok result) items results := by
  induction items generalizing results with
  | nil =>
      rw [mapM_nil, forall₂_nil_left_iff]
      exact ⟨fun same => (Except.ok.inj same).symm, fun same => congrArg Except.ok same.symm⟩
  | cons item rest ih =>
      rw [mapM_cons, forall₂_cons_left_iff]
      cases isResult : step item with
      | error error => exact iff_of_false (by rintro ⟨⟩) (by rintro ⟨_, _, ⟨⟩, _⟩)
      | ok result =>
          cases isRest : rest.mapM step with
          | error error =>
              refine iff_of_false (by rintro ⟨⟩) ?_
              rintro ⟨_, later, -, behind, -⟩
              cases (ih.mpr behind).symm.trans isRest
          | ok later =>
              constructor
              · rintro ⟨⟩
                exact ⟨result, later, rfl, ih.mp isRest, rfl⟩
              · rintro ⟨_, others, ⟨⟩, behind, rfl⟩
                cases (ih.mpr behind).symm.trans isRest
                rfl

/-- One interface is resolved, if there is one. -/
theorem optionMapM_eq_ok_iff {ref : Option InterfaceRef} {index : Option (BitVec 32)} :
    ref.mapM resolve = .ok index ↔
      match ref with
      | some ref => ∃ ifindex, resolve ref = .ok ifindex ∧ index = some ifindex
      | none => index = none := by
  cases ref with
  | none => exact ⟨fun same => (Except.ok.inj same).symm, fun same => congrArg Except.ok same.symm⟩
  | some ref =>
      change (resolve ref).bind (fun ifindex => .ok (some ifindex)) = _ ↔
        ∃ ifindex, resolve ref = .ok ifindex ∧ index = some ifindex
      cases resolve ref with
      | error error => exact iff_of_false (by rintro ⟨⟩) (by rintro ⟨_, ⟨⟩, _⟩)
      | ok ifindex =>
          constructor
          · rintro ⟨⟩
            exact ⟨ifindex, rfl, rfl⟩
          · rintro ⟨_, ⟨⟩, rfl⟩
            rfl

theorem optionMapM_ok_iff {ref : Option InterfaceRef} :
    (∃ index, ref.mapM resolve = .ok index) ↔
      ∀ given ∈ ref, ∃ ifindex, resolve given = .ok ifindex := by
  simp only [optionMapM_eq_ok_iff]
  cases ref with
  | none => exact iff_of_true ⟨none, rfl⟩ (by rintro _ ⟨⟩)
  | some ref =>
      constructor
      · rintro ⟨_, ifindex, isIndex, -⟩ _ ⟨⟩
        exact ⟨ifindex, isIndex⟩
      · intro each
        obtain ⟨ifindex, isIndex⟩ := each ref rfl
        exact ⟨_, ifindex, isIndex, rfl⟩

theorem exists_forall₂_iff {α β : Type} {relation : α → β → Prop} {items : List α} :
    (∃ results, List.Forall₂ relation items results) ↔
      ∀ item ∈ items, ∃ result, relation item result := by
  induction items with
  | nil => exact iff_of_true ⟨[], .nil⟩ (forall_mem_nil _)
  | cons item rest ih =>
      rw [forall_mem_cons, ← ih]
      constructor
      · rintro ⟨results, related⟩
        cases related with
        | cons first behind => exact ⟨⟨_, first⟩, _, behind⟩
      · rintro ⟨⟨result, first⟩, later, behind⟩
        exact ⟨result :: later, .cons first behind⟩

section Resolved

variable {dev : Option InterfaceRef} {nexthops : List NextHop}

theorem resolveRouteInterfaces_eq_ok_iff {interfaces : ResolvedRouteInterfaces} :
    resolveRouteInterfaces resolve dev (some nexthops) = .ok interfaces ↔
      dev.mapM resolve = .ok interfaces.oif ∧
      List.Forall₂ (fun nh index => nh.dev.mapM resolve = .ok index) nexthops
        interfaces.multipath := by
  have each : List.Forall₂ (fun nh index => nh.dev.mapM resolve = .ok index) nexthops
      interfaces.multipath ↔
        (nexthops.map NextHop.dev).mapM (fun ref => ref.mapM resolve) =
          .ok interfaces.multipath := by
    rw [mapM_eq_ok_iff, forall₂_map_left_iff]
  rw [each, resolveRouteInterfaces, Option.getD_some]
  cases dev.mapM resolve with
  | error error => exact iff_of_false (by rintro ⟨⟩) (by rintro ⟨⟨⟩, _⟩)
  | ok oif =>
      cases (nexthops.map NextHop.dev).mapM fun ref => ref.mapM resolve with
      | error error => exact iff_of_false (by rintro ⟨⟩) (by rintro ⟨_, ⟨⟩⟩)
      | ok multipath =>
          constructor
          · rintro ⟨⟩
            exact ⟨rfl, rfl⟩
          · rintro ⟨isOif, isMultipath⟩
            cases interfaces
            cases isOif
            cases isMultipath
            rfl

theorem resolves_iff : Resolves resolve dev nexthops ↔
      ∃ interfaces, resolveRouteInterfaces resolve dev (some nexthops) = .ok interfaces := by
  simp only [resolveRouteInterfaces_eq_ok_iff]
  rw [Resolves, ← optionMapM_ok_iff]
  have each : (∀ nh ∈ nexthops, ∀ ref ∈ nh.dev, ∃ ifindex, resolve ref = .ok ifindex) ↔ _ :=
    (forall₂_congr fun nh _ => optionMapM_ok_iff.symm).trans exists_forall₂_iff.symm
  rw [each]
  constructor
  · rintro ⟨⟨oif, isOif⟩, multipath, isMultipath⟩
    exact ⟨⟨oif, multipath⟩, isOif, isMultipath⟩
  · rintro ⟨interfaces, isOif, isMultipath⟩
    exact ⟨⟨_, isOif⟩, _, isMultipath⟩

end Resolved

/-- A next hop as it is written, with the gateway of the family. -/
def NextHop.hop (own : NextHop → Option IpAddr) (nh : NextHop) (index : Option (BitVec 32)) :
    Hop where
  flags := nh.flags
  hops := saturatingPred nh.weight
  ifindex := index.getD 0
  gateway := own nh

variable {nexthops : List NextHop}

theorem multipathData_eq_chain (own : NextHop → Option IpAddr)
    {indices : List (Option (BitVec 32))} (lengths : nexthops.length = indices.length) :
    multipathData order own nexthops indices =
      chain order (List.zipWith (NextHop.hop own) nexthops indices) := by
  have bytes (nh : NextHop) (index : Option (BitVec 32)) :
      (RtNexthop.layout order).write
          ⟨.ofNat 16 (8 + (own nh).elim 0 fun gw => 4 + (octets gw).length), nh.flags,
            saturatingPred nh.weight, index.getD 0⟩ ++
        ((own nh).elim [] fun gw => order.toBytes 2 (4 + (octets gw).length) ++
          order.toBytes 2 attrIds.RTA_GATEWAY ++ octets gw) =
        (nh.hop own index).bytes order := by
    rw [Hop.bytes, hopBytes_eq, NextHop.hop]
    dsimp only
    cases own nh with
    | none => rfl
    | some gw =>
        have short := length_octets_le gw
        have aligned : 4 ∣ 4 + (octets gw).length := by cases gw <;> simp [octets]
        have unpadded : order.toBytes 2 (4 + (octets gw).length) ++
            order.toBytes 2 attrIds.RTA_GATEWAY ++ octets gw =
              Attrs.attrBytes order attrIds.RTA_GATEWAY (octets gw) := by
          rw [Attrs.attrBytes, Nat.min_eq_left (by omega), padding_of_dvd aligned, List.append_nil,
            List.append_assoc]
        have length : (Attrs.attrBytes order attrIds.RTA_GATEWAY (octets gw)).length =
            4 + (octets gw).length := by
          rw [Attrs.attrBytes_length, Nat.add_comm, nlaAlign_of_dvd aligned]
        rw [gatewayBytes, Option.toList_some, flatMap_singleton, length, ← unpadded]
        rfl
  have paired : nexthops.zipIdx.map (fun entry => entry.1.hop own indices[entry.2]?.join) =
      List.zipWith (NextHop.hop own) nexthops indices := by
    refine ext_getElem (by simp [lengths]) fun i inside outside => ?_
    have bound : i < indices.length := by simpa [lengths] using inside
    rw [getElem_map, getElem_zipIdx, getElem_zipWith, Nat.zero_add]
    dsimp only
    rw [getElem?_eq_getElem bound, Option.join_some]
  rw [multipathData, ← paired, chain, flatMap_map]
  exact flatMap_congr fun entry _ => bytes entry.1 _

variable {order}

variable {own : NextHop → Option IpAddr}

/-- One next hop is declared by what is parsed exactly if the gateway that is
written is its own. -/
theorem declares_hop_iff {nh : NextHop}
    {index : Option (BitVec 32)} (isIndex : nh.dev.mapM resolve = .ok index) :
    Declares resolve nh (nh.hop own index).parsed ↔ own nh = nh.gateway := by
  refine ⟨fun declares => declares.gateway, fun same => ⟨same, ?_, rfl, ?_⟩⟩
  · exact (saturatingSucc_pred_iff nh.weight).mpr nh.weighted
  · rw [optionMapM_eq_ok_iff] at isIndex
    cases isDev : nh.dev with
    | none =>
        rw [isDev] at isIndex
        rw [isIndex]
        rfl
    | some ref =>
        rw [isDev] at isIndex
        obtain ⟨ifindex, isResolved, rfl⟩ := isIndex
        exact isResolved

theorem forall₂_declares_iff
    {indices : List (Option (BitVec 32))}
    (isResolved : List.Forall₂ (fun nh index => nh.dev.mapM resolve = .ok index) nexthops indices) :
    List.Forall₂ (Declares resolve) nexthops
        ((List.zipWith (NextHop.hop own) nexthops indices).map Hop.parsed) ↔
      ∀ nh ∈ nexthops, own nh = nh.gateway := by
  induction isResolved with
  | nil => exact iff_of_true .nil (forall_mem_nil _)
  | cons isIndex behind ih =>
      rw [zipWith_cons_cons, map_cons, forall₂_cons, forall_mem_cons, ih, declares_hop_iff isIndex]

/-- A route is installed as it was declared exactly if each gateway is of the
family, once the interfaces are resolved. -/
theorem installed_addRoute_iff {dev : Option InterfaceRef}
    {header : RtMsg} {writer : ResolvedRouteInterfaces → Writer order} {family : BitVec 8}
    (found : ∀ interfaces, (writer interfaces).found attrIds.RTA_MULTIPATH =
      some (multipathData order own nexthops interfaces.multipath))
    (fits : ∀ interfaces, resolveRouteInterfaces resolve dev (some nexthops) = .ok interfaces →
      ∀ attr ∈ (writer interfaces).attrs, attr.Fits)
    (ofFamily : ∀ nh : NextHop, ∀ gw ∈ own nh, OfFamily family gw) :
    Installed order resolve family nexthops
        (addRoute order resolve dev (some nexthops) header writer) ↔
      (Resolves resolve dev nexthops → ∀ nh ∈ nexthops, own nh = nh.gateway) := by
  rw [resolves_iff]
  cases isResolved : resolveRouteInterfaces resolve dev (some nexthops) with
  | error error =>
      rw [addRoute, isResolved]
      exact iff_of_true trivial (by rintro ⟨_, ⟨⟩⟩)
  | ok interfaces =>
      have each := (resolveRouteInterfaces_eq_ok_iff.mp isResolved).2
      have headerLength : ((NlMsgHdr.new 24 0x605).asBytes order ++ header.asBytes order).length =
          NLMSG_HDRLEN + RtMsg.SIZE := by
        rw [length_append, asBytes_length, RtMsg.asBytes_length]
        rfl
      have aligned : 4 ∣ (header.asBytes order).length := ⟨3, RtMsg.asBytes_length order header⟩
      have attrs : attrIter order (((writer interfaces).write ((MessageBuilder.new order 24
          0x605).appendBytes (header.asBytes order))).buf.drop (NLMSG_HDRLEN + RtMsg.SIZE)) =
            (writer interfaces).seen := by
        rw [Writer.buf_behind _ _ _ aligned, ← List.append_assoc, drop_left' headerLength,
          attrIter_encodeAll order (fits interfaces isResolved), Writer.seen]
      have parsed : parseMultipath order (multipathData order own nexthops interfaces.multipath)
          family = (List.zipWith (NextHop.hop own) nexthops interfaces.multipath).map
            Hop.parsed := by
        rw [multipathData_eq_chain order own each.length_eq]
        refine parseMultipath_chain order fun hop member => ?_
        rw [← map_uncurry_zip_eq_zipWith] at member
        obtain ⟨pair, -, rfl⟩ := mem_map.mp member
        exact ofFamily pair.1
      rw [addRoute, isResolved]
      change (∃ chain, lastOf (attrIter order (((writer interfaces).write ((MessageBuilder.new order
        24 0x605).appendBytes (header.asBytes order))).buf.drop _)) _ = some chain ∧ _) ↔ _
      rw [attrs, Writer.lastOf_seen, found]
      simp only [Option.some.injEq, exists_eq_left', parsed, forall₂_declares_iff each]
      exact ⟨fun same _ => same, fun same => same ⟨interfaces, rfl⟩⟩

section Families

variable {Addr : Type} (octets : Addr → List UInt8) (own : NextHop → Option IpAddr)
  (pref : Option (BitVec 8)) {route : IpRoute Addr} {nexthops : List NextHop}

/-- The chain is the only attribute of its type. -/
theorem found_writer (isMultipath : route.multipath = some nexthops)
    (interfaces : ResolvedRouteInterfaces) :
    (route.writer order octets own pref interfaces).found attrIds.RTA_MULTIPATH =
      some (multipathData order own nexthops interfaces.multipath) := by
  have metrics (metrics : RouteMetrics) : (metrics.writer order).found 9 = none :=
    (Writer.found_nest 9 (by decide) _).trans (if_neg (by decide))
  have mpls (encap : Mpls.MplsEncap) : (mplsWriter order encap).found 9 = none := by
    rw [mplsWriter]
    split
    · simp [Writer.found, Writer.seen, Mpls.MplsEncap.encapAttrs, lastOf, Attribute.masked,
        RtaAttr.ENCAP_TYPE, RtaAttr.ENCAP, NLA_F_NESTED, NLA_F_NET_BYTEORDER]
    · rfl
  have srv6 (encap : Srv6Encap) : (encap.writer order).found 9 = none := by
    simp [Srv6Encap.writer, RtaAttr.ENCAP_TYPE, RtaAttr.ENCAP]
  rw [attrIds.RTA_MULTIPATH]
  simp [IpRoute.writer, attrIds.RTA_MULTIPATH, isMultipath, metrics, mpls, srv6]

end Families

theorem gateway_eq_v4_iff (nh : NextHop) :
    nh.gatewayV4.map IpAddr.v4 = nh.gateway ↔ nh.gatewayV6 = none := by
  rw [NextHop.gateway]
  rcases nh.oneGateway with unset | unset
  · rw [unset]
    cases nh.gatewayV6 <;> simp
  · simp [unset]

theorem gateway_eq_v6_iff (nh : NextHop) :
    nh.gatewayV6.map IpAddr.v6 = nh.gateway ↔ nh.gatewayV4 = none := by
  rw [NextHop.gateway]
  rcases nh.oneGateway with unset | unset
  · simp [unset]
  · rw [unset]
    cases nh.gatewayV4 <;> simp

theorem installed_addIpv4Route_iff {route : Ipv4Route} {nexthops : List NextHop}
    (isMultipath : route.multipath = some nexthops)
    (fits : ∀ interfaces, resolveRouteInterfaces resolve route.dev (some nexthops) =
      .ok interfaces → ∀ attr ∈ (ipv4Writer order route interfaces).attrs, attr.Fits) :
    Installed order resolve AF_INET nexthops (addIpv4Route order resolve route) ↔
      (Resolves resolve route.dev nexthops → ∀ nh ∈ nexthops, nh.gatewayV6 = none) := by
  have ofFamily : ∀ nh : NextHop, ∀ gw ∈ nh.gatewayV4.map IpAddr.v4, OfFamily AF_INET gw := by
    intro nh gw isGateway
    obtain ⟨addr, -, rfl⟩ := Option.map_eq_some_iff.mp isGateway
    rfl
  rw [addIpv4Route, isMultipath]
  exact (installed_addRoute_iff (found_writer Ipv4Addr.octets _ none isMultipath) fits
    ofFamily).trans (imp_congr_right fun _ => forall₂_congr fun nh _ => gateway_eq_v4_iff nh)

theorem installed_addIpv6Route_iff {route : Ipv6Route}
    (isMultipath : route.multipath = some nexthops)
    (fits : ∀ interfaces, resolveRouteInterfaces resolve route.dev (some nexthops) =
      .ok interfaces → ∀ attr ∈ (ipv6Writer order route interfaces).attrs, attr.Fits) :
    Installed order resolve AF_INET6 nexthops (addIpv6Route order resolve route) ↔
      (Resolves resolve route.dev nexthops → ∀ nh ∈ nexthops, nh.gatewayV4 = none) := by
  have ofFamily : ∀ nh : NextHop, ∀ gw ∈ nh.gatewayV6.map IpAddr.v6, OfFamily AF_INET6 gw := by
    intro nh gw isGateway
    obtain ⟨addr, -, rfl⟩ := Option.map_eq_some_iff.mp isGateway
    rfl
  rw [addIpv6Route, isMultipath]
  exact (installed_addRoute_iff (found_writer Ipv6Addr.octets _ route.pref isMultipath) fits
    ofFamily).trans (imp_congr_right fun _ => forall₂_congr fun nh _ => gateway_eq_v6_iff nh)

/-- A route over several next hops is installed as it was declared exactly if no
next hop has a gateway of the other family, once the interfaces are resolved. -/
theorem multipathInstalled_iff {v4 : Ipv4Route} {hops4 : List NextHop} (isV4 : v4.multipath = some hops4)
    (fits4 : ∀ interfaces, resolveRouteInterfaces resolve v4.dev (some hops4) = .ok interfaces →
      ∀ attr ∈ (ipv4Writer order v4 interfaces).attrs, attr.Fits)
    {v6 : Ipv6Route} {hops6 : List NextHop} (isV6 : v6.multipath = some hops6)
    (fits6 : ∀ interfaces, resolveRouteInterfaces resolve v6.dev (some hops6) = .ok interfaces →
      ∀ attr ∈ (ipv6Writer order v6 interfaces).attrs, attr.Fits) :
    (Installed order resolve AF_INET hops4 (addIpv4Route order resolve v4) ↔
      (Resolves resolve v4.dev hops4 → ∀ nh ∈ hops4, nh.gatewayV6 = none)) ∧
    (Installed order resolve AF_INET6 hops6 (addIpv6Route order resolve v6) ↔
      (Resolves resolve v6.dev hops6 → ∀ nh ∈ hops6, nh.gatewayV4 = none)) :=
  ⟨installed_addIpv4Route_iff isV4 fits4, installed_addIpv6Route_iff isV6 fits6⟩

end Installed

/-- A route to all destinations over the next hops. -/
def across {Addr : Type} (destination : Addr) (nexthops : List NextHop) : IpRoute Addr where
  destination := destination
  prefixLen := 0
  gateway := none
  prefsrc := none
  dev := none
  routeType := .unicast
  protocol := 3
  scope := none
  table := 254
  priority := none
  metrics := none
  mark := none
  multipath := some nexthops
  nexthopId := none
  mplsEncap := none
  srv6Encap := none

/-- A next hop of the first family on an interface. -/
def viaV4 : NextHop :=
  (NextHop.new.withGatewayV4 0xc0a80001).withDev (.index 2)

/-- A next hop of the second family on an interface. -/
def viaV6 : NextHop :=
  (NextHop.new.withGatewayV6 0xfe800000000000000000000000000001).withDev (.index 3)

/-- Interfaces that are given by their indices. -/
def byIndex : InterfaceRef → Except Error (BitVec 32)
  | .index ifindex => .ok ifindex
  | .name name => .error (.invalidMessage name)

theorem resolves_via : Resolves byIndex none [viaV4, viaV6] := by
  refine ⟨by rintro _ ⟨⟩, ?_⟩
  simp only [forall_mem_cons, not_mem_nil, false_imp_iff, implies_true, and_true]
  refine ⟨?_, ?_⟩
  · rintro _ ⟨⟩
    exact ⟨2, rfl⟩
  · rintro _ ⟨⟩
    exact ⟨3, rfl⟩

theorem fits_v4 : ∀ interfaces,
    resolveRouteInterfaces byIndex none (some [viaV4, viaV6]) = .ok interfaces →
      ∀ attr ∈ (ipv4Writer .little (across 0 [viaV4, viaV6]) interfaces).attrs, attr.Fits := by
  rintro _ ⟨⟩
  decide +kernel

/-- Two next hops of one family, on two interfaces. -/
def twoOf (nexthop : NextHop) : List NextHop :=
  [nexthop, nexthop.withDev (.index 4)]

theorem installed_via : Installed .little byIndex AF_INET (twoOf viaV4)
      (addIpv4Route .little byIndex (across 0 (twoOf viaV4))) ∧
    Installed .little byIndex AF_INET6 (twoOf viaV6)
      (addIpv6Route .little byIndex ⟨across 0 (twoOf viaV6), none⟩) := by
  have fits4 : ∀ interfaces,
      resolveRouteInterfaces byIndex none (some (twoOf viaV4)) = .ok interfaces →
        ∀ attr ∈ (ipv4Writer .little (across 0 (twoOf viaV4)) interfaces).attrs, attr.Fits := by
    rintro _ ⟨⟩
    decide +kernel
  have fits6 : ∀ interfaces,
      resolveRouteInterfaces byIndex none (some (twoOf viaV6)) = .ok interfaces →
        ∀ attr ∈ (ipv6Writer .little ⟨across 0 (twoOf viaV6), none⟩ interfaces).attrs,
          attr.Fits := by
    rintro _ ⟨⟩
    decide +kernel
  have both := @multipathInstalled_iff .little byIndex (across 0 (twoOf viaV4)) _ rfl fits4
    ⟨across 0 (twoOf viaV6), none⟩ _ rfl fits6
  exact ⟨both.1.mpr fun _ => by decide, both.2.mpr fun _ => by decide⟩

/-- The gateway of the other family is left out. -/
theorem not_installed_via : Resolves byIndex none [viaV4, viaV6] ∧
    ¬ Installed .little byIndex AF_INET [viaV4, viaV6]
      (addIpv4Route .little byIndex (across 0 [viaV4, viaV6])) := by
  refine ⟨resolves_via, fun installed => ?_⟩
  have ofFamily := (@installed_addIpv4Route_iff .little byIndex (across 0 [viaV4, viaV6])
    [viaV4, viaV6] rfl fits_v4).mp installed resolves_via
  exact absurd ofFamily (by decide)

end Nlink.Route
