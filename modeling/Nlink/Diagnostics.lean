import Mathlib.Data.List.MinMax
import Mathlib.Data.Prod.Lex
import Mathlib.Order.OrderDual
import Nlink.Foundation.ByteMasks
import Nlink.Foundation.Digits
import Nlink.RouteMessage

namespace Nlink.Diagnostics

open Foundation Netlink Neighbor List
open Nlink.Addr (IpAddr)
open Nlink.Route (RouteMessage)
open Nlink.RouteEvents (LinkMessage)
open Foundation.AddressText (showIpv4 showIpv6)

/-!
# The check of a destination's connectivity

The check takes the first route of a dump, in whatever table, that covers the
destination.  The kernel asks its local table before the main one and takes the
longest prefix.
-/

def AF_INET : UInt8 := 2
def AF_INET6 : UInt8 := 10

def showAddr : IpAddr → List Char
  | .v4 addr => showIpv4 addr
  | .v6 addr => showIpv6 addr

inductive Severity where
  | warning
  | error

inductive IssueCategory where
  | noRoute
  | unreachable
  | linkDown

structure Issue where
  severity : Severity
  category : IssueCategory
  message : List Char
  details : Option (List Char)
  interface : Option String

/-- Basic route information. -/
structure RouteInfo where
  destination : List Char
  prefixLen : UInt8
  gateway : Option IpAddr
  oif : Option (BitVec 32)
  devName : Option String
  source : Option IpAddr
  metric : Option (BitVec 32)
  deriving DecidableEq

structure ConnectivityReport where
  destination : IpAddr
  route : Option RouteInfo
  outputInterface : Option String
  gateway : Option IpAddr
  gatewayReachable : Bool
  issues : List Issue

/-- What the connection dumps. -/
structure Dumps where
  routes : List RouteMessage
  links : List LinkMessage
  neighbors : List NeighborMessage

namespace Dumps

variable (dumps : Dumps)

/-- `get_link_by_index`. -/
def getLinkByIndex (index : BitVec 32) : Option LinkMessage :=
  dumps.links.find? fun link => link.header.ifiIndex = index

/-- The name of a route's output interface. -/
def outputInterface (oif : Option (BitVec 32)) : Option String :=
  oif.bind fun idx => (dumps.getLinkByIndex idx).bind LinkMessage.name

end Dumps

/-- The routes of a destination's family. -/
def ofFamily (dest : IpAddr) (routes : List RouteMessage) : List RouteMessage :=
  match dest with
  | .v4 _ => routes.filter fun r => r.header.rtmFamily = AF_INET
  | .v6 _ => routes.filter fun r => r.header.rtmFamily = AF_INET6

/-- The mask of a prefix of an IPv4 address. -/
def maskOf (prefixLen : UInt8) : BitVec 32 :=
  if 32 ≤ prefixLen.toNat then BitVec.allOnes 32
  else BitVec.allOnes 32 <<< (32 - prefixLen.toNat)

/-- Whether IPv6 addresses have a prefix in common; a prefix of more than 16 whole
bytes panics. -/
def samePrefix6 (dest dst : Ipv6Addr) (prefixLen : UInt8) : Option Bool :=
  let dBytes := dest.octets
  let pBytes := dst.octets
  let fullBytes := prefixLen.toNat / 8
  let remainingBits := prefixLen.toNat % 8
  if 16 < fullBytes then
    none
  else if dBytes.take fullBytes ≠ pBytes.take fullBytes then
    some false
  else if 0 < remainingBits ∧ fullBytes < 16 then do
    let mask := BitVec.allOnes 8 <<< (8 - remainingBits)
    let d ← dBytes[fullBytes]?
    let p ← pBytes[fullBytes]?
    pure (d.toBitVec &&& mask = p.toBitVec &&& mask)
  else
    some true

/-- Whether a route is taken for a destination. -/
def covers (dest : IpAddr) (r : RouteMessage) : Option Bool :=
  match r.destination with
  | none => some (r.header.rtmDstLen = 0)
  | some dst =>
      if r.header.rtmDstLen = 0 then
        some true
      else
        match dest, dst with
        | .v4 d, .v4 p => some (d &&& maskOf r.header.rtmDstLen = p &&& maskOf r.header.rtmDstLen)
        | .v6 d, .v6 p => samePrefix6 d p r.header.rtmDstLen
        | _, _ => some false

/-- The first route that is taken; there is no result where a comparison panics. -/
def findRoute (dest : IpAddr) : List RouteMessage → Option (Option RouteMessage)
  | [] => some none
  | r :: later =>
      match covers dest r with
      | none => none
      | some true => some (some r)
      | some false => findRoute dest later

def routeInfo (dumps : Dumps) (r : RouteMessage) : RouteInfo where
  destination := (r.destination.map showAddr).getD "default".toList
  prefixLen := r.header.rtmDstLen
  gateway := r.gateway
  oif := r.oif
  devName := dumps.outputInterface r.oif
  source := r.prefsrc
  metric := r.priority

/-- Whether a neighbor stands for a gateway that is reachable: it is not in the
states `Incomplete` and `Failed`. -/
def reaches (gw : IpAddr) (n : NeighborMessage) : Bool :=
  n.destination = some gw && n.header.ndmState ≠ 0x01 && n.header.ndmState ≠ 0x20

def gatewayReachable (dumps : Dumps) : Option IpAddr → Bool
  | none => true
  | some gw => dumps.neighbors.any (reaches gw)

def gatewayIssues (dumps : Dumps) (gateway : Option IpAddr) (outputInterface : Option String) :
    List Issue :=
  match gateway with
  | none => []
  | some gw =>
      if gatewayReachable dumps gateway then
        []
      else
        [{ severity := .warning
           category := .unreachable
           message := "Gateway Some(".toList ++ showAddr gw ++ ") may be unreachable".toList
           details := some "Not found in neighbor cache or in failed state".toList
           interface := outputInterface }]

def linkIssues (dumps : Dumps) (oif : Option (BitVec 32)) : List Issue :=
  match oif.bind dumps.getLinkByIndex with
  | none => []
  | some link =>
      if link.header.ifiFlags &&& 1 ≠ 0 then
        []
      else
        [{ severity := .error
           category := .linkDown
           message := "Output interface ".toList ++ (link.name.getD "?").toList ++
             " is down".toList
           details := none
           interface := link.name }]

/-- Check connectivity to a destination. -/
def checkConnectivity (dumps : Dumps) (dest : IpAddr) : Option ConnectivityReport := do
  match ← findRoute dest (ofFamily dest dumps.routes) with
  | some r =>
      let outputInterface := dumps.outputInterface r.oif
      pure {
        destination := dest
        route := some (routeInfo dumps r)
        outputInterface := outputInterface
        gateway := r.gateway
        gatewayReachable := gatewayReachable dumps r.gateway
        issues := gatewayIssues dumps r.gateway outputInterface ++ linkIssues dumps r.oif }
  | none =>
      pure {
        destination := dest
        route := none
        outputInterface := none
        gateway := none
        gatewayReachable := true
        issues := [{
          severity := .error
          category := .noRoute
          message := "No route to ".toList ++ showAddr dest
          details := none
          interface := none }] }

/-!
## The route of the kernel

Among the routes whose prefix contains a destination, those of the local table come
first, then a longer prefix, then a lower metric.
-/

def RT_TABLE_MAIN : BitVec 32 := 254
def RT_TABLE_LOCAL : BitVec 32 := 255
def RTN_UNICAST : UInt8 := 1
def RTN_BLACKHOLE : UInt8 := 6
def RTN_UNREACHABLE : UInt8 := 7
def RTN_PROHIBIT : UInt8 := 8

/-- `table_id`. -/
def tableId (r : RouteMessage) : BitVec 32 :=
  r.table.getD (BitVec.ofNat 32 r.header.rtmTable.toNat)

/-- A route's prefix contains a destination; a route without one has the default prefix. -/
def Contains (dest : IpAddr) (r : RouteMessage) : Prop :=
  r.header.rtmDstLen = 0 ∨
    match dest, r.destination with
    | .v4 d, some (.v4 p) => SharePrefix r.header.rtmDstLen.toNat d p
    | .v6 d, some (.v6 p) => SharePrefix r.header.rtmDstLen.toNat d p
    | _, _ => False

instance (dest : IpAddr) (r : RouteMessage) : Decidable (Contains dest r) := by
  unfold Contains
  rcases dest with _ | _ <;> rcases r.destination with _ | _ | _ <;> infer_instance

/-- A route that the kernel looks at. -/
structure Candidate (dumps : Dumps) (dest : IpAddr) (r : RouteMessage) : Prop where
  dumped : r ∈ ofFamily dest dumps.routes
  contained : Contains dest r
  inTables : tableId r = RT_TABLE_LOCAL ∨ tableId r = RT_TABLE_MAIN ∧
    r.header.rtmType ∈ [RTN_UNICAST, RTN_BLACKHOLE, RTN_UNREACHABLE, RTN_PROHIBIT]

/-- How a route is ranked: the local table, the longest prefix, the lowest metric. -/
def rank (r : RouteMessage) : ℕ ×ₗ ℕ ×ₗ ℕᵒᵈ :=
  toLex (if tableId r = RT_TABLE_LOCAL then 1 else 0,
    toLex (r.header.rtmDstLen.toNat, OrderDual.toDual (r.priority.getD 0).toNat))

/-- A route that the kernel selects. -/
structure Selected (dumps : Dumps) (dest : IpAddr) (best : RouteMessage) : Prop where
  candidate : Candidate dumps dest best
  first : ∀ r, Candidate dumps dest r → rank r ≤ rank best

def ConnectivityReport.NoRoute (report : ConnectivityReport) : Prop :=
  ∃ issue ∈ report.issues, issue.category = .noRoute

/-- The check does not panic, and it reports a route that the kernel selects, or that
there is none. -/
def Reports (dumps : Dumps) (dest : IpAddr) : Prop :=
  ∃ report, checkConnectivity dumps dest = some report ∧
    (report.NoRoute ↔ ∀ r, ¬ Candidate dumps dest r) ∧
    ((∃ r, Candidate dumps dest r) → ∃ best, Selected dumps dest best ∧
      report.route = some (routeInfo dumps best) ∧ report.gateway = best.gateway ∧
      report.outputInterface = dumps.outputInterface best.oif)

/-!
## Which route is taken
-/

/-- A prefix of 17 whole bytes or more. -/
def Overlong (dest : IpAddr) (r : RouteMessage) : Prop :=
  match dest, r.destination with
  | .v6 _, some (.v6 _) => 136 ≤ r.header.rtmDstLen.toNat
  | _, _ => False

instance (dest : IpAddr) (r : RouteMessage) : Decidable (Overlong dest r) := by
  unfold Overlong
  rcases dest with _ | _ <;> rcases r.destination with _ | _ | _ <;> infer_instance

theorem samePrefix4_iff (dest dst : Ipv4Addr) (prefixLen : UInt8) :
    dest &&& maskOf prefixLen = dst &&& maskOf prefixLen ↔
      SharePrefix prefixLen.toNat dest dst := by
  have mask : maskOf prefixLen = prefixMask 32 prefixLen.toNat := by
    rw [maskOf, prefixMask]
    split_ifs with whole
    · rw [Nat.sub_eq_zero_of_le whole, BitVec.shiftLeft_zero]
    · rfl
  rw [mask, and_prefixMask_eq_iff]

theorem samePrefix6_eq (dest dst : Ipv6Addr) (prefixLen : UInt8) :
    samePrefix6 dest dst prefixLen = if 136 ≤ prefixLen.toNat then none
      else some (decide (SharePrefix prefixLen.toNat dest dst)) := by
  have split := Nat.div_add_mod prefixLen.toNat 8
  have few : prefixLen.toNat % 8 < 8 := Nat.mod_lt _ (by decide)
  simp only [samePrefix6]
  by_cases long : 16 < prefixLen.toNat / 8
  · rw [if_pos long, if_pos (by omega)]
  have short : ¬ 136 ≤ prefixLen.toNat := by omega
  rw [if_neg long, if_neg short]
  by_cases whole : prefixLen.toNat / 8 = 16
  · -- All bytes are compared, and what is left of the length is not.
    have same : SharePrefix prefixLen.toNat dest dst ↔ SharePrefix (8 * 16) dest dst := by
      rw [@sharePrefix_of_width_le 128 prefixLen.toNat (by omega),
        @sharePrefix_of_width_le 128 (8 * 16) (by decide)]
    have shared := same.trans (@sharePrefix_whole_iff 16 16 (by decide) dest dst)
    have noBits : ¬ (0 < prefixLen.toNat % 8 ∧ 16 < 16) := fun both => absurd both.2 (by decide)
    rw [whole]
    by_cases differ : dest.octets.take 16 = dst.octets.take 16
    · rw [if_neg (not_not_intro differ), if_neg noBits]
      exact congrArg some (decide_eq_true (shared.mpr differ)).symm
    · rw [if_pos differ]
      exact congrArg some (decide_eq_false fun is => differ (shared.mp is)).symm
  · have inside : prefixLen.toNat / 8 < 16 := by omega
    have byte : ∀ addr : Ipv6Addr, addr.octets[prefixLen.toNat / 8]? =
        some (UInt8.ofNat (addr.toNat / 256 ^ (16 - 1 - prefixLen.toNat / 8))) := fun addr =>
      getElem?_toBytes_big inside addr.toNat
    have parts := @sharePrefix_bytes_iff 16 (prefixLen.toNat / 8) (prefixLen.toNat % 8) inside
      few.le dest dst
    rw [split] at parts
    rw [decide_eq_decide.mpr parts, byte, byte]
    simp only [Option.bind_eq_bind, Option.bind_some, Option.pure_def]
    by_cases differ : dest.octets.take (prefixLen.toNat / 8) = dst.octets.take (prefixLen.toNat / 8)
    · rw [if_neg (not_not_intro differ)]
      by_cases left : 0 < prefixLen.toNat % 8
      · rw [if_pos ⟨left, inside⟩]
        simp only [Option.some.injEq, decide_eq_decide]
        exact (@and_prefixMask_eq_iff 8 (prefixLen.toNat % 8) _ _).trans (and_iff_right differ).symm
      · rw [if_neg fun both => left both.1]
        have none : prefixLen.toNat % 8 = 0 := by omega
        refine congrArg some (decide_eq_true ⟨differ, ?_⟩).symm
        rw [none, sharePrefix_iff_div, Nat.sub_zero, Nat.div_eq_of_lt (BitVec.isLt _),
          Nat.div_eq_of_lt (BitVec.isLt _)]
    · rw [if_pos differ]
      exact congrArg some (decide_eq_false fun both => differ both.1).symm

theorem covers_eq (dest : IpAddr) (r : RouteMessage) :
    covers dest r = if Overlong dest r then none else some (decide (Contains dest r)) := by
  rw [covers]
  by_cases zero : r.header.rtmDstLen = 0
  · have contained : Contains dest r := .inl zero
    have short : ¬ Overlong dest r := by
      unfold Overlong
      rw [zero]
      split <;> decide
    rw [if_neg short, decide_eq_true contained]
    cases r.destination <;> simp [zero]
  · cases isDst : r.destination with
    | none => simp [Contains, Overlong, isDst, zero]
    | some dst =>
        dsimp only
        rw [if_neg zero]
        cases dest with
        | v4 d =>
            cases dst with
            | v4 p => simp [Contains, Overlong, isDst, zero, samePrefix4_iff]
            | v6 p => simp [Contains, Overlong, isDst, zero]
        | v6 d =>
            cases dst with
            | v4 p => simp [Contains, Overlong, isDst, zero]
            | v6 p => simp [Contains, Overlong, isDst, zero, samePrefix6_eq]

/-- A route at which the search ends. -/
def EndsAt (dest : IpAddr) (r : RouteMessage) : Bool :=
  decide (Contains dest r) || decide (Overlong dest r)

theorem findRoute_eq (dest : IpAddr) (routes : List RouteMessage) : findRoute dest routes =
    match routes.find? (EndsAt dest) with
    | none => some none
    | some r => if Overlong dest r then none else some (some r) := by
  induction routes with
  | nil => rfl
  | cons r later ih =>
      rw [findRoute, covers_eq, find?_cons, EndsAt]
      by_cases long : Overlong dest r
      · rw [if_pos long, decide_eq_true long, Bool.or_true]
        exact (if_pos long).symm
      · rw [if_neg long, decide_eq_false long, Bool.or_false]
        by_cases contained : Contains dest r
        · rw [decide_eq_true contained]
          exact (if_neg long).symm
        · rw [decide_eq_false contained]
          exact ih

theorem category_gatewayIssues {gateway : Option IpAddr} {outputInterface : Option String} :
    ∀ issue ∈ gatewayIssues dumps gateway outputInterface, issue.category ≠ .noRoute := by
  unfold gatewayIssues
  split
  · exact forall_mem_nil _
  · split_ifs
    · exact forall_mem_nil _
    · exact forall_mem_singleton.mpr IssueCategory.noConfusion

theorem category_linkIssues {oif : Option (BitVec 32)} :
    ∀ issue ∈ linkIssues dumps oif, issue.category ≠ .noRoute := by
  unfold linkIssues
  split
  · exact forall_mem_nil _
  · split_ifs
    · exact forall_mem_nil _
    · exact forall_mem_singleton.mpr IssueCategory.noConfusion

/-- Two routes are told alike. -/
structure ToldAlike (r other : RouteMessage) : Prop where
  destination : (r.destination.map showAddr).getD "default".toList =
    (other.destination.map showAddr).getD "default".toList
  prefixLen : r.header.rtmDstLen = other.header.rtmDstLen
  gateway : r.gateway = other.gateway
  oif : r.oif = other.oif
  source : r.prefsrc = other.prefsrc
  metric : r.priority = other.priority

theorem routeInfo_eq_iff {r other : RouteMessage} :
    routeInfo dumps r = routeInfo dumps other ↔ ToldAlike r other := by
  constructor
  · intro same
    obtain ⟨destination, prefixLen, gateway, oif, -, source, metric⟩ := RouteInfo.mk.inj same
    exact ⟨destination, prefixLen, gateway, oif, source, metric⟩
  · rintro ⟨destination, prefixLen, gateway, oif, source, metric⟩
    rw [routeInfo, routeInfo, destination, prefixLen, gateway, oif, source, metric]

/--
The report is that of the kernel exactly if no route of the family contains the
destination, or the first one of the dump that does is told as one that the kernel
selects, and no prefix before it is too long to be compared.
-/
theorem checkConnectivity_iff {dumps : Dumps} {dest : IpAddr} : Reports dumps dest ↔
    ∀ r, (ofFamily dest dumps.routes).find? (EndsAt dest) = some r → ¬ Overlong dest r ∧
      ∃ best, Selected dumps dest best ∧ ToldAlike r best := by
  rw [Reports, checkConnectivity, findRoute_eq]
  cases isFirst : (ofFamily dest dumps.routes).find? (EndsAt dest) with
  | none =>
      have nothing : ∀ r, ¬ Candidate dumps dest r := by
        intro r candidate
        have passed := find?_eq_none.mp isFirst r candidate.dumped
        rw [EndsAt, decide_eq_true candidate.contained, Bool.true_or] at passed
        exact passed rfl
      refine iff_of_true ⟨_, rfl, iff_of_true ?_ nothing, ?_⟩ (by rintro _ ⟨⟩)
      · exact ⟨_, mem_singleton_self _, rfl⟩
      · rintro ⟨r, candidate⟩
        exact absurd candidate (nothing r)
  | some r =>
      by_cases long : Overlong dest r
      · refine iff_of_false ?_ fun all => (all r rfl).1 long
        rintro ⟨report, isReport, -⟩
        simp [long] at isReport
      · simp only [if_neg long, Option.bind_eq_bind, Option.bind_some, Option.pure_def,
          Option.some.injEq]
        have routed : ∀ issue ∈ gatewayIssues dumps r.gateway (dumps.outputInterface r.oif) ++
            linkIssues dumps r.oif, issue.category ≠ .noRoute := by
          intro issue member
          rcases mem_append.mp member with gateway | link
          · exact category_gatewayIssues issue gateway
          · exact category_linkIssues issue link
        constructor
        · rintro ⟨_, rfl, noRoute, selects⟩ _ ⟨⟩
          have found : ¬ ∀ r, ¬ Candidate dumps dest r := by
            intro nothing
            obtain ⟨issue, member, isNone⟩ := noRoute.mpr nothing
            exact routed issue member isNone
          obtain ⟨best, selected, info, -, -⟩ := selects (not_forall_not.mp found)
          exact ⟨long, best, selected, routeInfo_eq_iff.mp (Option.some.inj info)⟩
        · intro all
          obtain ⟨-, best, selected, alike⟩ := all r rfl
          have info := (@routeInfo_eq_iff dumps r best).mpr alike
          refine ⟨_, rfl, iff_of_false ?_ fun nothing => nothing best selected.candidate, fun _ =>
            ⟨best, selected, congrArg some info, congrArg RouteInfo.gateway info,
              congrArg RouteInfo.devName info⟩⟩
          rintro ⟨issue, member, isNone⟩
          exact routed issue member isNone

def mainRoute (prefixLen : UInt8) (destination : Option IpAddr) (oif : BitVec 32) :
    RouteMessage where
  header := ⟨AF_INET, prefixLen, 0, 0, 254, 3, 0, RTN_UNICAST, 0⟩
  destination := destination
  source := none
  iif := none
  oif := some oif
  gateway := none
  priority := none
  prefsrc := none
  table := none
  pref := none
  expires := none
  multipath := none

/-- A default route, and a route of a network behind it in the dump. -/
def defaultFirst : Dumps where
  routes := [mainRoute 0 none 2, mainRoute 8 (some (.v4 0x0a000000)) 3]
  links := []
  neighbors := []

/-- Of a default route in front, and the route of the network, the check takes the first. -/
theorem not_reports_defaultFirst : ¬ Reports defaultFirst (.v4 0x0a010203) := by
  intro reports
  obtain ⟨-, best, selected, alike⟩ :=
    checkConnectivity_iff.mp reports (mainRoute 0 none 2) (by decide +kernel)
  have network : Candidate defaultFirst (.v4 0x0a010203) (mainRoute 8 (some (.v4 0x0a000000)) 3) :=
    ⟨by decide +kernel, by decide +kernel, by decide +kernel⟩
  have longer := selected.first _ network
  rcases mem_cons.mp (mem_filter.mp selected.candidate.dumped).1 with isDefault | member
  · rw [isDefault] at longer
    exact absurd longer (by decide +kernel)
  · rw [mem_singleton.mp member] at alike
    exact absurd alike.oif (by decide)

end Nlink.Diagnostics
