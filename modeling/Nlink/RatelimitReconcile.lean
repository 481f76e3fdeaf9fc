import Mathlib.Data.List.Flatten
import Nlink.NetworkDiff
import Nlink.TcRecipeConverge

namespace Nlink.Ratelimit

open Nlink.Network (IpAddr)
open Nlink.Tc List

/-!
# Rate limits for hosts

A limiter has a rate for every rule and a default rate.  A rule matches packets
by an address, a subnet or a destination port.
-/

inductive HostMatch where
  | ip (ip : IpAddr)
  | subnet (ip : IpAddr) (length : BitVec 8)
  | port (port : BitVec 16)
  | portRange (start last : BitVec 16)
  | srcIp (ip : IpAddr)
  | srcSubnet (ip : IpAddr) (length : BitVec 8)
  deriving DecidableEq

structure HostRule where
  match_ : HostMatch
  rate : Rate
  ceil : Option Rate

structure PerHostLimiter where
  dev : String
  defaultRate : Rate
  rules : List HostRule
  latency : Option Duration

def PerHostLimiter.totalRate (limiter : PerHostLimiter) : Rate :=
  limiter.defaultRate.saturatingAdd (Rate.sum (limiter.rules.map (·.rate)))

open Nlink.Tc.TcHandle

/-!
## Building the tree anew

`apply` deletes the root qdisc and adds an HTB with a class, a leaf qdisc and
filters for every rule, and a class and a leaf for what no rule matches.
-/

/-- `start..=last`. -/
def portsUpTo (start last : BitVec 16) : List (BitVec 16) :=
  (List.range (last.toNat + 1 - start.toNat)).map fun offset =>
    BitVec.ofNat 16 (start.toNat + offset)

/-- The prefix length of a single address. -/
def fullLength : IpAddr → BitVec 8
  | .v4 _ => 32
  | .v6 _ => 128

def addDstFilter (classid : TcHandle) (priority : BitVec 16) (length : BitVec 8) :
    IpAddr → Conn Unit
  | .v4 addr =>
      addFilterFull (majorOnly 1) ETH_P_IP priority
        ((FlowerFilter.selecting classid priority).withDstIpv4 addr length)
  | .v6 addr =>
      addFilterFull (majorOnly 1) ETH_P_IPV6 priority
        ((FlowerFilter.selecting classid priority).withDstIpv6 addr length)

def addSrcFilter (classid : TcHandle) (priority : BitVec 16) (length : BitVec 8) :
    IpAddr → Conn Unit
  | .v4 addr =>
      addFilterFull (majorOnly 1) ETH_P_IP priority
        ((FlowerFilter.selecting classid priority).withSrcIpv4 addr length)
  | .v6 addr =>
      addFilterFull (majorOnly 1) ETH_P_IPV6 priority
        ((FlowerFilter.selecting classid priority).withSrcIpv6 addr length)

/-- `add_filter_for_rule`.  A range of more than eleven ports gets no filter,
and an error for one port of a range is not reported. -/
def addFilterForRule (index : Nat) (rule : HostRule) : Conn Unit :=
  let classid := TcHandle.new 1 (BitVec.ofNat 16 (index + 2))
  let priority := BitVec.ofNat 16 (index + 1)
  match rule.match_ with
  | .ip ip => addDstFilter classid priority (fullLength ip) ip
  | .subnet ip length => addDstFilter classid priority length ip
  | .srcIp ip => addSrcFilter classid priority (fullLength ip) ip
  | .srcSubnet ip length => addSrcFilter classid priority length ip
  | .port port => do
      addFilterFull (majorOnly 1) ETH_P_IP priority
        ((FlowerFilter.selecting classid priority).ipProtoTcp.withDstPort port)
      addFilterFull (majorOnly 1) ETH_P_IP (priority + 100)
        ((FlowerFilter.selecting classid (priority + 100)).ipProtoUdp
          |>.withDstPort port)
  | .portRange start last =>
      if last - start ≤ 10 then
        (portsUpTo start last).forM fun port =>
          ignoringError
            (addFilterFull (majorOnly 1) ETH_P_IP priority
              ((FlowerFilter.selecting classid priority).ipProtoTcp
                |>.withDstPort port))
      else
        pure ()

namespace PerHostLimiter

/-- The leaf qdisc of every class. -/
def fqCodel (limiter : PerHostLimiter) : QdiscConfig :=
  .fqCodel { target := limiter.latency }

/-- One turn of the loop of `apply`. -/
def applyRule (limiter : PerHostLimiter) (item : HostRule × Nat) : Conn Unit := do
  let (rule, i) := item
  let classid := TcHandle.new 1 (BitVec.ofNat 16 (i + 2))
  let leafHandle := majorOnly (BitVec.ofNat 16 (i + 10))
  addClass (TcHandle.new 1 1) classid { rate := rule.rate, ceil := some (rule.ceil.getD rule.rate) }
  addQdiscFull classid leafHandle limiter.fqCodel
  addFilterForRule i rule

def apply (limiter : PerHostLimiter) : Conn Unit := do
  ignoringError (delQdiscFull ROOT none)
  addQdiscFull ROOT (majorOnly 1)
    (.htb { defaultClass := BitVec.ofNat 32 (limiter.rules.length + 1) })
  let parentClassid := TcHandle.new 1 1
  addClass (majorOnly 1) parentClassid { rate := limiter.totalRate, ceil := some limiter.totalRate }
  limiter.rules.zipIdx.forM limiter.applyRule
  let defaultClassid := TcHandle.new 1 (BitVec.ofNat 16 (limiter.rules.length + 2))
  let defaultHandle := majorOnly (BitVec.ofNat 16 (limiter.rules.length + 10))
  addClass parentClassid defaultClassid
    { rate := limiter.defaultRate, ceil := some limiter.defaultRate }
  addQdiscFull defaultClassid defaultHandle limiter.fqCodel

end PerHostLimiter

open Foundation

/-!
## Converging a live tree of rate limits

`reconcile` sends requests for what differs from the tree of the limiter.
-/

/-- The filters that a rule wants, each with its protocol and priority.  A
range of ports is left to `apply`. -/
def wantedFilters (index : Nat) (rule : HostRule) (classid : TcHandle) :
    List (BitVec 16 × BitVec 16 × FlowerFilter) :=
  let priority := BitVec.ofNat 16 (index + 1)
  let byDst := fun (length : BitVec 8) (ip : IpAddr) =>
    match ip with
    | .v4 addr =>
        [(ETH_P_IP, priority, (FlowerFilter.selecting classid priority).withDstIpv4 addr length)]
    | .v6 addr =>
        [(ETH_P_IPV6, priority, (FlowerFilter.selecting classid priority).withDstIpv6 addr length)]
  let bySrc := fun (length : BitVec 8) (ip : IpAddr) =>
    match ip with
    | .v4 addr =>
        [(ETH_P_IP, priority, (FlowerFilter.selecting classid priority).withSrcIpv4 addr length)]
    | .v6 addr =>
        [(ETH_P_IPV6, priority, (FlowerFilter.selecting classid priority).withSrcIpv6 addr length)]
  match rule.match_ with
  | .ip ip => byDst (fullLength ip) ip
  | .subnet ip length => byDst length ip
  | .srcIp ip => bySrc (fullLength ip) ip
  | .srcSubnet ip length => bySrc length ip
  | .port port =>
      [(ETH_P_IP, priority, (FlowerFilter.selecting classid priority).ipProtoTcp
          |>.withDstPort port),
        (ETH_P_IP, priority + 100, (FlowerFilter.selecting classid (priority + 100)).ipProtoUdp
            |>.withDstPort port)]
  | .portRange _ _ => []

section

variable (opts : ReconcileOptions)

/-- `reconcile_filter_for_rule`.  Returns how many filters are added. -/
def reconcileFilterForRule (tree : LiveTree) (index : Nat) (rule : HostRule) (classid : TcHandle) :
    Conn Nat :=
  (wantedFilters index rule classid).foldlM
    (fun changes wanted => do
      return changes +
        (← reconcileFilter opts tree classid wanted (Error.withContext
            ("PerHostLimiter::reconcile: add filter prio=" ++
              toString wanted.2.1.toNat ++ " classid=" ++
              classid.format))).toNat)
    0

variable (limiter : PerHostLimiter)

/-- The leaf qdisc of a class. -/
def reconcileFqCodel (tree : LiveTree) (classid leafHandle : TcHandle)
    (added updated : String) : Conn Bool :=
  reconcileLeaf opts "PerHostLimiter" tree classid leafHandle limiter.fqCodel
    (fqCodelTargetMatches (limiter.latency.map (·.asMicros))) added updated

/-- One turn of the loop over the rules. -/
def reconcileRule (tree : LiveTree) (report : ReconcileReport) (item : HostRule × Nat) :
    Conn ReconcileReport := do
  let (rule, i) := item
  let classid := TcHandle.new 1 (BitVec.ofNat 16 (i + 2))
  let leafHandle := majorOnly (BitVec.ofNat 16 (i + 10))
  let tcClass ←
    reconcileClass opts "PerHostLimiter" tree (TcHandle.new 1 1) classid
      rule.rate (rule.ceil.getD rule.rate) ("add class " ++ classid.format)
      ("update class " ++ classid.format)
  let leaf ←
    reconcileFqCodel opts limiter tree classid leafHandle
      ("add fq_codel leaf at " ++ classid.format) ("update fq_codel leaf at " ++ classid.format)
  let filters ← reconcileFilterForRule opts tree i rule classid
  let ruleAdded := decide (tcClass = .added)
  let ruleModified := tcClass = .updated || leaf || 0 < filters
  return { report with
    changesMade := report.changesMade + tcClass.isChange.toNat + leaf.toNat + filters
    rulesAdded := report.rulesAdded + ruleAdded.toNat
    rulesModified := report.rulesModified + (!ruleAdded && ruleModified).toNat }

def PerHostLimiter.managedPriority (prio : BitVec 16) : Bool :=
  let n := limiter.rules.length
  (1 ≤ prio && prio.toNat ≤ n) || (101 ≤ prio && prio.toNat ≤ 100 + n)

def PerHostLimiter.mappedIndex (prio : BitVec 16) : Option Nat :=
  let below := fun least : Nat => if least ≤ prio.toNat then some (prio.toNat - least) else none
  ((below 101).filter (· < limiter.rules.length)).or ((below 1).filter (· < limiter.rules.length))

/-- `collect_stale_and_unmanaged`. -/
def collectStaleAndUnmanaged (tree : LiveTree) (report : ReconcileReport) : Conn ReconcileReport :=
  removeStale opts "PerHostLimiter" tree
    (BitVec.ofNat 16 (limiter.rules.length + 2)) limiter.managedPriority
    (fun prio => (limiter.mappedIndex prio).isSome) report

/-- `reconcile_inner`, below the root qdisc. -/
def reconcileBelowRoot (tree : LiveTree) (report : ReconcileReport) : Conn ReconcileReport := do
  let n := limiter.rules.length
  let parentClassid := TcHandle.new 1 1
  let defaultClassid := TcHandle.new 1 (BitVec.ofNat 16 (n + 2))
  let defaultLeafHandle := majorOnly (BitVec.ofNat 16 (n + 10))
  let parentClass ←
    reconcileClass opts "PerHostLimiter" tree (majorOnly 1) parentClassid
      limiter.totalRate limiter.totalRate "add parent class 1:1"
      "update parent class 1:1"
  let report := { report with
    changesMade := report.changesMade + parentClass.isChange.toNat
    rootModified := report.rootModified || parentClass.isChange }
  let report ←
    limiter.rules.zipIdx.foldlM (reconcileRule opts limiter tree) report
  let defaultClass ←
    reconcileClass opts "PerHostLimiter" tree parentClassid defaultClassid
      limiter.defaultRate limiter.defaultRate "add default class"
      "update default class"
  let defaultLeaf ←
    reconcileFqCodel opts limiter tree defaultClassid defaultLeafHandle
      "add default fq_codel leaf" "update default fq_codel leaf"
  let report := { report with
    changesMade := report.changesMade + defaultClass.isChange.toNat + defaultLeaf.toNat
    defaultModified := report.defaultModified || defaultClass.isChange || defaultLeaf }
  collectStaleAndUnmanaged opts limiter tree report

namespace PerHostLimiter

/-- `apply_as_reconcile`, with an estimate of the changes. -/
def applyAsReconcile : Conn ReconcileReport := do
  limiter.apply
  let n := limiter.rules.length
  return {
    changesMade := 2 + 3 * n + 2
    rulesAdded := n
    rootModified := true
    defaultModified := true }

/-- `reconcile_with_options`, once the device is found. -/
def reconcileInner : Conn ReconcileReport := do
  let report : ReconcileReport := { dryRun := opts.dryRun }
  let tree ← dumpLiveTree
  let defaultMinor := BitVec.ofNat 16 (limiter.rules.length + 2)
  let rootChanged := { report with
    changesMade := report.changesMade + 1
    rootModified := true }
  match ← reconcileRoot opts "PerHostLimiter" tree limiter.dev
      defaultMinor with
  | .below changed => reconcileBelowRoot opts limiter tree (if changed then rootChanged else report)
  | .rebuild => if opts.dryRun then return rootChanged else limiter.applyAsReconcile

end PerHostLimiter

end

/-- `reconcile`. -/
def PerHostLimiter.reconcile (limiter : PerHostLimiter) : Conn ReconcileReport :=
  limiter.reconcileInner {}

/-!
## The filters of a limiter

A rule expands into filters for its class.  The filters of different rules have
different priorities, and those of one rule different keys, so that no two of
them clash.
-/

/-- The filters that `apply` adds for a rule, with protocol and priority. -/
def appliedFilters (item : HostRule × Nat) : List (BitVec 16 × BitVec 16 × FlowerFilter) :=
  let classid := TcHandle.new 1 (BitVec.ofNat 16 (item.2 + 2))
  let priority := BitVec.ofNat 16 (item.2 + 1)
  match item.1.match_ with
  | .portRange start last =>
      if last - start ≤ 10 then
        (portsUpTo start last).map fun port =>
          (ETH_P_IP, priority, (FlowerFilter.selecting classid priority).ipProtoTcp
              |>.withDstPort port)
      else
        []
  | _ => wantedFilters item.2 item.1 classid

variable {index : Nat} {rule : HostRule}

theorem addFilterForRule_eq
    (noRange : ∀ start last, rule.match_ ≠ .portRange start last) :
    addFilterForRule index rule =
      (appliedFilters (rule, index)).forM fun wanted =>
        addFilterFull (majorOnly 1) wanted.1 wanted.2.1 wanted.2.2 := by
  rw [addFilterForRule, appliedFilters, wantedFilters]
  cases isMatch : rule.match_ with
  | ip ip | subnet ip length => cases ip <;> simp [addDstFilter, fullLength]
  | srcIp ip | srcSubnet ip length => cases ip <;> simp [addSrcFilter, fullLength]
  | port port => simp
  | portRange start last => exact absurd isMatch (noRange start last)

theorem addFilterForRule_portRange {start last : BitVec 16}
    (isRange : rule.match_ = .portRange start last) :
    addFilterForRule index rule =
      (appliedFilters (rule, index)).forM fun wanted =>
        ignoringError (addFilterFull (majorOnly 1) wanted.1 wanted.2.1 wanted.2.2) := by
  rw [addFilterForRule, appliedFilters]
  simp only [isRange]
  by_cases short : last - start ≤ 10
  · rw [if_pos short, if_pos short]
    rw [forM_eq_forM, forM_eq_forM, forM_map]
  · rw [if_neg short, if_neg short]
    rfl

theorem succeeds_addFilterForRule {ifindex : BitVec 32} {tree : TcTree} {item : HostRule × Nat}
    (atRoot : tree.handle = majorOnly 1)
    (apart : (tree.filters ++ (appliedFilters item).map rootFilter).Pairwise Apart) :
    Succeeds (addFilterForRule item.2 item.1) ⟨ifindex, some tree⟩ ()
      ⟨ifindex, some { tree with
        filters := tree.filters ++ (appliedFilters item).map rootFilter }⟩ := by
  by_cases isRange : ∃ start last, item.1.match_ = .portRange start last
  · obtain ⟨start, last, isRange⟩ := isRange
    rw [addFilterForRule_portRange isRange]
    exact succeeds_addFilters succeeds_ignoringError atRoot apart
  · rw [addFilterForRule_eq fun start last same => isRange ⟨start, last, same⟩]
    exact succeeds_addFilters id atRoot apart

theorem wantedFilters_spec {classid : TcHandle} {wanted : BitVec 16 × BitVec 16 × FlowerFilter}
    (isWanted : wanted ∈ wantedFilters index rule classid) :
    wanted.2.2.classid = some classid ∧
      (wanted.2.1 = BitVec.ofNat 16 (index + 1) ∨ wanted.2.1 = BitVec.ofNat 16 (index + 101)) := by
  have companion : BitVec.ofNat 16 (index + 1) + 100 = BitVec.ofNat 16 (index + 101) :=
    (BitVec.ofNat_add (index + 1) 100).symm
  rw [wantedFilters] at isWanted
  cases isMatch : rule.match_ with
  | ip ip | subnet ip length | srcIp ip | srcSubnet ip length =>
      rw [isMatch] at isWanted
      cases ip <;>
        · rw [mem_singleton.mp isWanted]
          exact ⟨rfl, .inl rfl⟩
  | port port =>
      rw [isMatch] at isWanted
      rcases mem_pair.mp isWanted with rfl | rfl
      · exact ⟨rfl, .inl rfl⟩
      · exact ⟨rfl, .inr companion⟩
  | portRange start last =>
      rw [isMatch] at isWanted
      cases isWanted

theorem appliedFilters_spec {item : HostRule × Nat} {wanted : BitVec 16 × BitVec 16 × FlowerFilter}
    (isApplied : wanted ∈ appliedFilters item) :
    wanted.2.2.classid = some (TcHandle.new 1 (BitVec.ofNat 16 (item.2 + 2))) ∧
      (wanted.2.1 = BitVec.ofNat 16 (item.2 + 1) ∨
        wanted.2.1 = BitVec.ofNat 16 (item.2 + 101)) := by
  rw [appliedFilters] at isApplied
  cases isMatch : item.1.match_ with
  | portRange start last =>
      simp only [isMatch] at isApplied
      by_cases short : last - start ≤ 10
      · rw [if_pos short, mem_map] at isApplied
        obtain ⟨port, _, rfl⟩ := isApplied
        exact ⟨rfl, .inl rfl⟩
      · rw [if_neg short] at isApplied
        cases isApplied
  | ip ip | subnet ip length | srcIp ip | srcSubnet ip length | port port =>
      simp only [isMatch] at isApplied
      exact wantedFilters_spec isApplied

theorem wantedFilters_sublist (item : HostRule × Nat) :
    (wantedFilters item.2 item.1 (TcHandle.new 1 (BitVec.ofNat 16 (item.2 + 2)))).Sublist
        (appliedFilters item) := by
  rw [appliedFilters]
  cases isMatch : item.1.match_ with
  | portRange start last =>
      rw [wantedFilters]
      simp only [isMatch]
      exact nil_sublist _
  | ip ip | subnet ip length | srcIp ip | srcSubnet ip length | port port =>
      exact List.Sublist.refl _

/-!
## Filters of a limiter do not clash
-/

theorem apart_of_tcpDst {first second : TcFilter} {firstAttrs secondAttrs : FlowerAttrs}
    (isFirst : first.options = .flower firstAttrs) (isSecond : second.options = .flower secondAttrs)
    (sameProtocol : first.protocol = second.protocol)
    (differ : firstAttrs.keyTcpDst ≠ secondAttrs.keyTcpDst) : Apart first second := by
  have otherKeys : second.options.sameKeys first.options = false := by
    rw [isFirst, isSecond]
    refine decide_eq_false fun same => differ ?_
    exact (congrArg FlowerAttrs.keyTcpDst same).symm
  rw [Apart, TcFilter.clashes, otherKeys, isFirst, isSecond, sameProtocol]
  simp [FilterOptions.kind]

theorem portsUpTo_nodup (start last : BitVec 16) : (portsUpTo start last).Nodup := by
  rw [portsUpTo, List.Nodup, pairwise_map]
  refine nodup_range.imp_of_mem fun {first second} firstIn secondIn => ?_
  rw [mem_range] at firstIn secondIn
  intro differ same
  have lastSmall := last.isLt
  have values := ofNat_inj (by omega) (by omega) same
  omega

theorem appliedFilters_apart (item : HostRule × Nat) :
    ((appliedFilters item).map rootFilter).Pairwise Apart := by
  rw [appliedFilters]
  cases isMatch : item.1.match_ with
  | portRange start last =>
      simp only
      by_cases short : last - start ≤ 10
      · rw [if_pos short, map_map, pairwise_map]
        refine (portsUpTo_nodup start last).imp fun {first second} differ => ?_
        refine apart_of_tcpDst rfl rfl rfl fun same => differ ?_
        exact Option.some.inj same
      · rw [if_neg short]
        exact List.Pairwise.nil
  | ip ip | subnet ip length | srcIp ip | srcSubnet ip length =>
      simp only [wantedFilters, isMatch]
      cases ip <;> exact pairwise_singleton _ _
  | port port =>
      simp only [wantedFilters, isMatch]
      refine pairwise_pair.mpr (apart_of_priority ?_)
      change BitVec.ofNat 16 (item.2 + 1) ≠ BitVec.ofNat 16 (item.2 + 1) + 100
      bv_omega

theorem priority_ne {first second : Nat} (firstSmall : first < 100) (secondSmall : second < 100)
    (differ : first ≠ second) {one other : BitVec 16}
    (isOne : one = BitVec.ofNat 16 (first + 1) ∨ one = BitVec.ofNat 16 (first + 101))
    (isOther : other = BitVec.ofNat 16 (second + 1) ∨ other = BitVec.ofNat 16 (second + 101)) :
    one ≠ other := by
  intro same
  subst same
  rcases isOne with isOne | isOne <;> rcases isOther with isOther | isOther <;>
    · have values := ofNat_inj (by omega) (by omega) (isOne.symm.trans isOther)
      omega

/-!
## What `apply` builds

The tree after the first rules is that of their slots.  Each turn of the loop
of `apply` adds a slot at the end, and so do the last requests, for the default
class.
-/

namespace PerHostLimiter

variable (limiter : PerHostLimiter)

/-- The class under which all others are. -/
def parentAttrs : HtbClassAttrs :=
  HtbClassConfig.writeOptions { rate := limiter.totalRate, ceil := some limiter.totalRate }

/-- The leaf qdisc of every class. -/
def leafOptions : QdiscOptions :=
  .fqCodel ((limiter.latency.map (·.asMicros)).getD defaultTargetUs)

def ruleConfig (rule : HostRule) : HtbClassConfig where
  rate := rule.rate
  ceil := some (rule.ceil.getD rule.rate)

def ruleSlot (filters : HostRule × Nat → List TcFilter) (item : HostRule × Nat) : Slot where
  place := item.2
  attrs := (ruleConfig item.1).writeOptions
  leaf := some limiter.leafOptions
  filters := filters item

/-- The class for what no rule matches. -/
def defaultConfig : HtbClassConfig where
  rate := limiter.defaultRate
  ceil := some limiter.defaultRate

def defaultSlot : Slot where
  place := limiter.rules.length
  attrs := limiter.defaultConfig.writeOptions
  leaf := some limiter.leafOptions
  filters := []

def slots (filters : HostRule × Nat → List TcFilter) : List Slot :=
  limiter.rules.zipIdx.map (limiter.ruleSlot filters) ++ [limiter.defaultSlot]

def fullTree (defaultMinor : BitVec 32) (filters : HostRule × Nat → List TcFilter) : TcTree :=
  slotTree defaultMinor limiter.parentAttrs (limiter.slots filters)

end PerHostLimiter

variable {limiter : PerHostLimiter} {ifindex defaultMinor : BitVec 32}
variable {filters : HostRule × Nat → List TcFilter}

theorem inPlace_ruleSlots (few : limiter.rules.length < 100) {done rest : List (HostRule × Nat)}
    (whole : limiter.rules.zipIdx = done ++ rest) : InPlace (done.map (limiter.ruleSlot filters)) :=
  InPlace.of_zipIdx whole (by omega) fun _ => rfl

theorem inPlace_slots (few : limiter.rules.length < 100) : InPlace (limiter.slots filters) := by
  have rules : InPlace (limiter.rules.zipIdx.map (limiter.ruleSlot filters)) :=
    inPlace_ruleSlots few (List.append_nil _).symm
  refine rules.snoc ?_ ?_
  · rw [length_map, length_zipIdx]
    rfl
  · rw [length_map, length_zipIdx]
    omega

/-!
## Filters
-/

theorem applied_apart (few : limiter.rules.length < 100) :
    (limiter.rules.zipIdx.flatMap fun item =>
      (appliedFilters item).map rootFilter).Pairwise Apart := by
  rw [pairwise_flatMap]
  refine ⟨fun item _ => appliedFilters_apart item, ?_⟩
  have ordered : limiter.rules.zipIdx.Pairwise fun first second =>
      first.2 < second.2 := by
    rw [← pairwise_map (f := Prod.snd), zipIdx_map_snd]
    exact pairwise_lt_range'
  refine ordered.imp_of_mem fun {first second} firstIn secondIn earlier => ?_
  have firstSmall := snd_lt_of_mem_zipIdx firstIn
  have secondSmall := snd_lt_of_mem_zipIdx secondIn
  intro one isOne other isOther
  obtain ⟨oneWanted, oneApplied, rfl⟩ := mem_map.mp isOne
  obtain ⟨otherWanted, otherApplied, rfl⟩ := mem_map.mp isOther
  exact apart_of_priority (priority_ne (by omega) (by omega) (Nat.ne_of_lt earlier)
      (appliedFilters_spec oneApplied).2 (appliedFilters_spec otherApplied).2)

theorem apart_next
    (fits : ∀ item, (filters item).Sublist ((appliedFilters item).map rootFilter))
    (few : limiter.rules.length < 100) {done rest : List (HostRule × Nat)} {item : HostRule × Nat}
    (whole : limiter.rules.zipIdx = done ++ item :: rest) :
    (done.flatMap filters ++ filters item).Pairwise Apart := by
  have apart := applied_apart few
  rw [whole, flatMap_append, flatMap_cons, ← List.append_assoc] at apart
  exact ((pairwise_append.mp apart).1).sublist
    ((List.Sublist.flatMap_right done fun other _ => fits other).append (fits item))

/-- The filters that `apply` builds. -/
def builtFilters (item : HostRule × Nat) : List TcFilter :=
  (appliedFilters item).map rootFilter

theorem flatMap_ruleSlots (items : List (HostRule × Nat)) :
    (items.map (limiter.ruleSlot filters)).flatMap Slot.filters = items.flatMap filters := by
  rw [flatMap_map]
  rfl

/-!
## A slot
-/

theorem fqCodel_writeOptions (limiter : PerHostLimiter) : limiter.fqCodel.writeOptions =
      .ok (.fqCodel (limiter.latency.map (·.asMicros))) :=
  rfl

section

variable {parent : HtbClassAttrs}

def PerHostLimiter.leafSlot
    (limiter : PerHostLimiter) (place : Nat) (config : HtbClassConfig) : Slot :=
  (bareSlot place config).withLeaf (some limiter.leafOptions)

theorem succeeds_addLeafAt {slots : List Slot} {place : Nat} (inPlace : InPlace slots)
    (isNext : place = slots.length) (few : place < 1000) (config : HtbClassConfig) :
    Succeeds (addQdiscFull (placeClass place) (placeLeaf place) limiter.fqCodel)
      ⟨ifindex, some (slotTree defaultMinor parent (slots ++ [bareSlot place config]))⟩ ()
      ⟨ifindex, some (slotTree defaultMinor parent
        (slots ++ [limiter.leafSlot place config]))⟩ := by
  have withClass : InPlace (slots ++ [bareSlot place config]) := inPlace.snoc isNext (isNext ▸ few)
  exact succeeds_addSlotLeaf withClass rfl (fqCodel_writeOptions limiter)

/-- What the slots before a rule leave for it. -/
theorem rule_fits
    (fits : ∀ item, (filters item).Sublist (builtFilters item))
    (few : limiter.rules.length < 100) {done rest : List (HostRule × Nat)} {item : HostRule × Nat}
    (whole : limiter.rules.zipIdx = done ++ item :: rest) :
    InPlace (done.map (limiter.ruleSlot filters)) ∧
      item.2 = (done.map (limiter.ruleSlot filters)).length ∧ item.2 < 1000 ∧
      ((slotTree defaultMinor parent (done.map (limiter.ruleSlot filters) ++
        [limiter.leafSlot item.2 (PerHostLimiter.ruleConfig item.1)])).filters ++
        filters item).Pairwise Apart := by
  obtain ⟨isNext, inside⟩ := place_of_zipIdx whole
  refine ⟨inPlace_ruleSlots few whole, by rw [length_map, isNext], by omega, ?_⟩
  change ((done.map (limiter.ruleSlot filters) ++
    [limiter.leafSlot item.2 _]).flatMap Slot.filters ++ _).Pairwise Apart
  rw [flatMap_append, flatMap_ruleSlots, flatMap_singleton]
  change (_ ++ [] ++ filters item).Pairwise Apart
  rw [List.append_nil]
  exact apart_next fits few whole

theorem succeeds_applyRule (few : limiter.rules.length < 100) {done rest : List (HostRule × Nat)}
    {item : HostRule × Nat} (whole : limiter.rules.zipIdx = done ++ item :: rest) :
    Succeeds (limiter.applyRule item)
      ⟨ifindex, some (slotTree defaultMinor parent (done.map (limiter.ruleSlot builtFilters)))⟩ ()
      ⟨ifindex, some (slotTree defaultMinor parent
        ((done ++ [item]).map (limiter.ruleSlot builtFilters)))⟩ := by
  obtain ⟨inPlace, lengths, small, apart⟩ :=
    @rule_fits limiter defaultMinor _ parent (fun _ => List.Sublist.refl _) few _ _ _ whole
  refine (succeeds_addSlotClassAt inPlace lengths small (PerHostLimiter.ruleConfig item.1)).bind ?_
  refine (succeeds_addLeafAt inPlace lengths small _).bind ?_
  have added := @succeeds_addFilterForRule ifindex _ item rfl apart
  rw [slotTree_lastFilters] at added
  rw [map_append]
  exact added

theorem succeeds_applyRules (few : limiter.rules.length < 100) :
    Succeeds (limiter.rules.zipIdx.forM limiter.applyRule)
      ⟨ifindex, some (slotTree defaultMinor parent [])⟩ ()
      ⟨ifindex, some (slotTree defaultMinor parent
        (limiter.rules.zipIdx.map (limiter.ruleSlot builtFilters)))⟩ := by
  let state : List (HostRule × Nat) → Device := fun done =>
    ⟨ifindex, some (slotTree defaultMinor parent (done.map (limiter.ruleSlot builtFilters)))⟩
  exact succeeds_forM_of_steps state fun done item rest whole => succeeds_applyRule few whole

end

theorem apply_succeeds (few : limiter.rules.length < 100) (tree : Option TcTree) :
    Succeeds limiter.apply ⟨ifindex, tree⟩ ()
      ⟨ifindex, some (limiter.fullTree
        (BitVec.ofNat 32 (limiter.rules.length + 1)) builtFilters)⟩ := by
  have inPlace : InPlace (limiter.rules.zipIdx.map (limiter.ruleSlot builtFilters)) :=
    inPlace_ruleSlots few (List.append_nil _).symm
  have isNext : limiter.rules.length =
      (limiter.rules.zipIdx.map (limiter.ruleSlot builtFilters)).length := by
    rw [length_map, length_zipIdx]
  have small : limiter.rules.length < 1000 := by omega
  refine (succeeds_delRoot tree).bind ?_
  refine succeeds_addRoot.bind ?_
  refine (succeeds_addParentClass _).bind ?_
  refine (succeeds_applyRules few).bind ?_
  refine (succeeds_addSlotClassAt inPlace isNext small limiter.defaultConfig).bind ?_
  exact succeeds_addLeafAt inPlace isNext small limiter.defaultConfig

/-!
## Reconciling a limiter

On a device without a root qdisc `reconcile` builds the tree of `apply` but for
the filters of ranges of ports.  On the tree that `apply` built it finds every
class, leaf and filter as it wants them.
-/

variable {limiter : PerHostLimiter} {ifindex : BitVec 32}

/-- The default class of the root that `reconcile` wants. -/
def PerHostLimiter.reconciledDefault (limiter : PerHostLimiter) : BitVec 32 :=
  (BitVec.ofNat 16 (limiter.rules.length + 2)).setWidth 32

/-- The filters that `reconcile` wants for a rule. -/
def reconciledFilters (item : HostRule × Nat) : List TcFilter :=
  (wantedFilters item.2 item.1 (placeClass item.2)).map rootFilter

theorem reconciledFilters_sublist (item : HostRule × Nat) :
    (reconciledFilters item).Sublist (builtFilters item) :=
  (wantedFilters_sublist item).map rootFilter

/-!
## A device without a root qdisc
-/

section

variable {defaultMinor : BitVec 32} {parent : HtbClassAttrs}

/-- The dump of a device without a root qdisc. -/
def emptyLive (ifindex : BitVec 32) : LiveTree :=
  Device.liveTree ⟨ifindex, none⟩

theorem tcClass_emptyLive (handle : TcHandle) : (emptyLive ifindex).tcClass handle = none :=
  rfl

theorem leafFor_emptyLive (handle : TcHandle) : (emptyLive ifindex).leafFor handle = none :=
  rfl

theorem ends_reconcileFilterForRule_fresh {tree : TcTree} {item : HostRule × Nat}
    (atRoot : tree.handle = majorOnly 1)
    (apart : (tree.filters ++ reconciledFilters item).Pairwise Apart) :
    Ends
      (reconcileFilterForRule wet (emptyLive ifindex) item.2 item.1 (placeClass item.2))
      ⟨ifindex, some tree⟩
      ⟨ifindex, some { tree with
        filters := tree.filters ++ reconciledFilters item }⟩ := by
  let state : List (BitVec 16 × BitVec 16 × FlowerFilter) → Device :=
    fun done => ⟨ifindex, some { tree with filters := tree.filters ++ done.map rootFilter }⟩
  have start : state [] = ⟨ifindex, some tree⟩ := by
    change (⟨ifindex, some { tree with filters := tree.filters ++ [] }⟩ : Device) = _
    rw [List.append_nil]
  rw [← start]
  refine ends_foldlM_of_steps state (fun done wanted rest whole count => ?_) 0
  have fits : ∀ filter ∈ tree.filters ++ done.map rootFilter, Apart filter (rootFilter wanted) := by
    intro filter member
    rw [reconciledFilters, whole, map_append, map_cons, ← List.append_assoc] at apart
    exact (pairwise_append.mp apart).2.2 filter member _ mem_cons_self
  have adds := @succeeds_addFilter ifindex
    { tree with filters := tree.filters ++ done.map rootFilter } wanted
    atRoot fits
  have same : state (done ++ [wanted]) = ⟨ifindex, some { tree with
      filters := tree.filters ++ done.map rootFilter ++ [rootFilter wanted] }⟩ := by
    simp [state]
  rw [same]
  have missing : (emptyLive ifindex).filterAtPriority wanted.2.1 = none := rfl
  exact (succeeds_reconcileFilter_missing missing adds).bindEnds ⟨_, rfl⟩

theorem ends_reconcileRule_fresh (few : limiter.rules.length < 100)
    {done rest : List (HostRule × Nat)} {item : HostRule × Nat}
    (whole : limiter.rules.zipIdx = done ++ item :: rest) (report : ReconcileReport) :
    Ends (reconcileRule wet limiter (emptyLive ifindex) report item)
      ⟨ifindex, some (slotTree defaultMinor parent (done.map (limiter.ruleSlot reconciledFilters)))⟩
      ⟨ifindex, some (slotTree defaultMinor parent
        ((done ++ [item]).map (limiter.ruleSlot reconciledFilters)))⟩ := by
  obtain ⟨inPlace, lengths, small, apart⟩ :=
    @rule_fits limiter defaultMinor _ parent reconciledFilters_sublist few _ _ _ whole
  have added := @ends_reconcileFilterForRule_fresh ifindex _ item rfl apart
  rw [slotTree_lastFilters] at added
  rw [map_append]
  have noClass := @tcClass_emptyLive ifindex (placeClass item.2)
  have noLeaf := @leafFor_emptyLive ifindex (placeClass item.2)
  refine (succeeds_reconcileClass_missing noClass
    (succeeds_addSlotClassAt inPlace lengths small (PerHostLimiter.ruleConfig item.1))).bindEnds ?_
  refine (succeeds_reconcileLeaf_missing noLeaf
    (succeeds_addLeafAt inPlace lengths small (PerHostLimiter.ruleConfig item.1))).bindEnds ?_
  exact added.bind fun _ => ⟨_, rfl⟩

end

theorem ends_reconcileRules_fresh (few : limiter.rules.length < 100) {defaultMinor : BitVec 32}
    {parent : HtbClassAttrs} (report : ReconcileReport) :
    Ends
      (limiter.rules.zipIdx.foldlM (reconcileRule wet limiter (emptyLive ifindex)) report)
      ⟨ifindex, some (slotTree defaultMinor parent [])⟩
      ⟨ifindex, some (slotTree defaultMinor parent
        (limiter.rules.zipIdx.map (limiter.ruleSlot reconciledFilters)))⟩ := by
  let state : List (HostRule × Nat) → Device := fun done =>
    ⟨ifindex, some (slotTree defaultMinor parent (done.map (limiter.ruleSlot reconciledFilters)))⟩
  exact ends_foldlM_of_steps state
    (fun done item rest whole report => ends_reconcileRule_fresh few whole report) report

theorem reconcile_fresh (few : limiter.rules.length < 100) : Ends limiter.reconcile ⟨ifindex, none⟩
      ⟨ifindex, some (limiter.fullTree limiter.reconciledDefault reconciledFilters)⟩ := by
  have inPlace : InPlace (limiter.rules.zipIdx.map (limiter.ruleSlot reconciledFilters)) :=
    inPlace_ruleSlots few (List.append_nil _).symm
  have isNext : limiter.rules.length =
      (limiter.rules.zipIdx.map (limiter.ruleSlot reconciledFilters)).length := by
    rw [length_map, length_zipIdx]
  have small : limiter.rules.length < 1000 := by omega
  have addsRoot : Succeeds (unlessDry wet "PerHostLimiter" "add HTB root"
        (addQdiscFull ROOT (majorOnly 1) (.htb { defaultClass := limiter.reconciledDefault })))
      ⟨ifindex, none⟩ () ⟨ifindex, some (bareTree limiter.reconciledDefault)⟩ :=
    succeeds_unlessDry succeeds_addRoot
  have root : Succeeds (reconcileRoot wet "PerHostLimiter" (emptyLive ifindex) limiter.dev
        (BitVec.ofNat 16 (limiter.rules.length + 2)))
      ⟨ifindex, none⟩ (.below true)
      ⟨ifindex, some (bareTree limiter.reconciledDefault)⟩ :=
    addsRoot.bind rfl
  have dumps : Succeeds dumpLiveTree ⟨ifindex, none⟩ (emptyLive ifindex) ⟨ifindex, none⟩ := rfl
  have noParent := @tcClass_emptyLive ifindex (TcHandle.new 1 1)
  have noClass := @tcClass_emptyLive ifindex (placeClass limiter.rules.length)
  have noLeaf := @leafFor_emptyLive ifindex (placeClass limiter.rules.length)
  refine dumps.bindEnds (root.bindEnds ?_)
  refine (succeeds_reconcileClass_missing noParent (succeeds_addParentClass _)).bindEnds ?_
  refine Ends.bind (ends_reconcileRules_fresh few _) fun report => ?_
  refine (succeeds_reconcileClass_missing noClass
    (succeeds_addSlotClassAt inPlace isNext small limiter.defaultConfig)).bindEnds ?_
  refine (succeeds_reconcileLeaf_missing noLeaf
    (succeeds_addLeafAt inPlace isNext small limiter.defaultConfig)).bindEnds ?_
  exact (succeeds_removeStale_idle rfl fun filter member => by cases member).ends

/-!
## The tree that `apply` built
-/

section

variable {defaultMinor : BitVec 32}

/-- The dump of the tree that `apply` built. -/
def builtLive (ifindex defaultMinor : BitVec 32) (limiter : PerHostLimiter) : LiveTree :=
  slotLive ifindex defaultMinor limiter.parentAttrs (limiter.slots builtFilters)

theorem slots_getElem {done rest : List (HostRule × Nat)} {item : HostRule × Nat}
    (whole : limiter.rules.zipIdx = done ++ item :: rest) :
    (limiter.slots builtFilters)[item.2]? = some (limiter.ruleSlot builtFilters item) := by
  rw [PerHostLimiter.slots, whole, (place_of_zipIdx whole).1]
  simp

theorem slots_default : (limiter.slots builtFilters)[limiter.rules.length]? =
      some limiter.defaultSlot := by
  simp [PerHostLimiter.slots]

theorem filters_slots (filters : HostRule × Nat → List TcFilter) :
    (limiter.slots filters).flatMap Slot.filters = limiter.rules.zipIdx.flatMap filters := by
  rw [PerHostLimiter.slots, flatMap_append, flatMap_ruleSlots, flatMap_singleton]
  exact List.append_nil _

variable {filter : TcFilter}

theorem mem_filters_built
    (member : filter ∈ (limiter.slots builtFilters).flatMap Slot.filters) :
    ∃ item ∈ limiter.rules.zipIdx, ∃ wanted ∈ appliedFilters item, rootFilter wanted = filter := by
  rw [filters_slots] at member
  obtain ⟨item, isItem, isBuilt⟩ := mem_flatMap.mp member
  exact ⟨item, isItem, mem_map.mp isBuilt⟩

theorem filters_atRoot
    (member : filter ∈ (limiter.slots builtFilters).flatMap Slot.filters) :
    filter.parent = majorOnly 1 := by
  obtain ⟨_, _, wanted, _, rfl⟩ := mem_filters_built member
  rfl

theorem filterAtPriority_built (few : limiter.rules.length < 100) {item : HostRule × Nat}
    (isItem : item ∈ limiter.rules.zipIdx) {wanted : BitVec 16 × BitVec 16 × FlowerFilter}
    (isWanted : wanted ∈ wantedFilters item.2 item.1 (placeClass item.2)) :
    ∃ live, (builtLive ifindex defaultMinor limiter).filterAtPriority
        wanted.2.1 = some live ∧ live.options.kind = "flower" ∧
      flowerClassid live = some (placeClass item.2) := by
  have isApplied := (wantedFilters_sublist item).subset isWanted
  have exists_ : rootFilter wanted ∈ (limiter.slots builtFilters).flatMap Slot.filters := by
    rw [filters_slots]
    exact mem_flatMap.mpr ⟨item, isItem, mem_map_of_mem isApplied⟩
  rw [builtLive, filterAtPriority_slotLive fun _ => filters_atRoot]
  cases found : ((limiter.slots builtFilters).flatMap Slot.filters).find?
      (·.priority = wanted.2.1) with
  | none =>
      rw [find?_eq_none] at found
      exact absurd (decide_eq_true rfl) (found _ exists_)
  | some live =>
      have isAt := find?_some found
      have samePriority : live.priority = wanted.2.1 := of_decide_eq_true isAt
      obtain ⟨other, isOther, otherWanted, otherApplied, rfl⟩ :=
        mem_filters_built (mem_of_find?_eq_some found)
      refine ⟨_, rfl, rfl, ?_⟩
      have small := snd_lt_of_mem_zipIdx isItem
      have otherSmall := snd_lt_of_mem_zipIdx isOther
      have places : other.2 = item.2 := by
        by_contra differ
        exact priority_ne (by omega) (by omega) differ (appliedFilters_spec otherApplied).2
          (appliedFilters_spec isApplied).2 samePriority
      have classid := (appliedFilters_spec otherApplied).1
      rw [places] at classid
      exact classid

theorem fqCodelTargetMatches_leaf (limiter : PerHostLimiter) (place : Nat) :
    fqCodelTargetMatches (limiter.latency.map (·.asMicros))
      { parent := placeClass place, handle := placeLeaf place
        options := limiter.leafOptions } = true := by
  rw [fqCodelTargetMatches, PerHostLimiter.leafOptions]
  cases limiter.latency with
  | none => rfl
  | some latency => exact decide_eq_true rfl

theorem succeeds_reconcileRule_idle (few : limiter.rules.length < 100) {item : HostRule × Nat}
    (isItem : item ∈ limiter.rules.zipIdx) (report : ReconcileReport) (device : Device) :
    Succeeds
      (reconcileRule wet limiter (builtLive ifindex defaultMinor limiter) report item)
      device report device := by
  obtain ⟨done, rest, whole⟩ := append_of_mem isItem
  have inPlace : InPlace (limiter.slots builtFilters) := inPlace_slots few
  have small : item.2 ≤ 1000 := by
    have inside := (place_of_zipIdx whole).2
    omega
  have tcClass : (builtLive ifindex defaultMinor limiter).tcClass (placeClass item.2) =
        some (limiter.ruleSlot builtFilters item).tcClass := by
    rw [builtLive, tcClass_place inPlace small, slots_getElem whole, Option.map_some]
  have leaf : (builtLive ifindex defaultMinor limiter).leafFor (placeClass item.2) =
        (limiter.ruleSlot builtFilters item).qdisc := by
    rw [builtLive, leafFor_place inPlace small, slots_getElem whole, Option.bind_some]
  have rates : htbClassRatesMatch (limiter.ruleSlot builtFilters item).tcClass
      item.1.rate.bytesPerSec (item.1.ceil.getD item.1.rate).bytesPerSec =
        true := by
    rw [htbClassRatesMatch_written rfl]
    simp [PerHostLimiter.ruleConfig]
  have filters : Succeeds (reconcileFilterForRule wet (builtLive ifindex defaultMinor limiter)
        item.2 item.1 (placeClass item.2)) device 0 device := by
    refine succeeds_foldlM_of_idle fun wanted isWanted => ?_
    obtain ⟨live, found, isFlower, same⟩ :=
      @filterAtPriority_built limiter ifindex defaultMinor few item isItem wanted isWanted
    exact (succeeds_reconcileFilter_kept found isFlower same).bind rfl
  refine (succeeds_reconcileClass_kept tcClass rates).bind ?_
  refine (succeeds_reconcileLeaf_kept leaf (fqCodelTargetMatches_leaf limiter item.2)).bind ?_
  exact filters.bind rfl

theorem managed_built (few : limiter.rules.length < 100)
    (member : filter ∈ (limiter.slots builtFilters).flatMap Slot.filters) :
    limiter.managedPriority filter.priority = true ∧
      (limiter.mappedIndex filter.priority).isSome = true := by
  obtain ⟨item, isItem, wanted, isApplied, rfl⟩ := mem_filters_built member
  have inside := snd_lt_of_mem_zipIdx isItem
  change limiter.managedPriority wanted.2.1 = true ∧ (limiter.mappedIndex wanted.2.1).isSome = true
  rw [PerHostLimiter.managedPriority, PerHostLimiter.mappedIndex]
  rcases (appliedFilters_spec isApplied).2 with isPrio | isPrio
  · have value : wanted.2.1.toNat = item.2 + 1 := by
      rw [isPrio, BitVec.toNat_ofNat, Nat.mod_eq_of_lt (by omega)]
    have low : ¬ 101 ≤ item.2 + 1 := by omega
    have within : item.2 + 1 ≤ limiter.rules.length := inside
    have inRules : item.2 < limiter.rules.length := inside
    simp [BitVec.le_def, value, low, within, inRules]
  · have value : wanted.2.1.toNat = item.2 + 101 := by
      rw [isPrio, BitVec.toNat_ofNat, Nat.mod_eq_of_lt (by omega)]
    have within : item.2 + 101 ≤ 100 + limiter.rules.length := by omega
    have inRules : item.2 < limiter.rules.length := inside
    simp [BitVec.le_def, value, within, inRules]

/-- `reconcile` on the tree that `apply` built changes the default class of the
root and nothing else. -/
theorem reconcile_built (few : limiter.rules.length < 100)
    (differs : defaultMinor ≠ limiter.reconciledDefault) :
    Succeeds limiter.reconcile ⟨ifindex, some (limiter.fullTree defaultMinor builtFilters)⟩
      { changesMade := 1, rootModified := true }
      ⟨ifindex, some (limiter.fullTree limiter.reconciledDefault builtFilters)⟩ := by
  have inPlace : InPlace (limiter.slots builtFilters) := inPlace_slots few
  have small : limiter.rules.length ≤ 1000 := by omega
  have dumps : Succeeds dumpLiveTree ⟨ifindex, some (limiter.fullTree defaultMinor builtFilters)⟩
      (builtLive ifindex defaultMinor limiter)
      ⟨ifindex, some (limiter.fullTree defaultMinor builtFilters)⟩ :=
    rfl
  have root := @succeeds_reconcileRoot_slots "PerHostLimiter" ifindex
    defaultMinor limiter.parentAttrs (limiter.slots builtFilters) limiter.dev
    (BitVec.ofNat 16 (limiter.rules.length + 2))
  have isChanged : decide (defaultMinor ≠
      (BitVec.ofNat 16 (limiter.rules.length + 2)).setWidth 32) = true :=
    decide_eq_true differs
  rw [isChanged] at root
  have parentSame : htbClassRatesMatch (parentClass limiter.parentAttrs)
      limiter.totalRate.bytesPerSec limiter.totalRate.bytesPerSec = true := by
    rw [@htbClassRatesMatch_written _
      { rate := limiter.totalRate, ceil := some limiter.totalRate } rfl]
    simp
  have defaultFound : (builtLive ifindex defaultMinor limiter).tcClass
      (placeClass limiter.rules.length) = some limiter.defaultSlot.tcClass := by
    rw [builtLive, tcClass_place inPlace small, slots_default, Option.map_some]
  have defaultSame : htbClassRatesMatch limiter.defaultSlot.tcClass
      limiter.defaultRate.bytesPerSec limiter.defaultRate.bytesPerSec =
        true := by
    rw [@htbClassRatesMatch_written _ limiter.defaultConfig rfl]
    simp [PerHostLimiter.defaultConfig]
  have leafFound : (builtLive ifindex defaultMinor limiter).leafFor
      (placeClass limiter.rules.length) = limiter.defaultSlot.qdisc := by
    rw [builtLive, leafFor_place inPlace small, slots_default, Option.bind_some]
  have rules : ∀ report, Succeeds (limiter.rules.zipIdx.foldlM
        (reconcileRule wet limiter (builtLive ifindex defaultMinor limiter))
        report)
      ⟨ifindex, some (limiter.fullTree limiter.reconciledDefault builtFilters)⟩ report
      ⟨ifindex, some (limiter.fullTree limiter.reconciledDefault builtFilters)⟩ :=
    fun report => succeeds_foldlM_of_idle fun item isItem =>
      succeeds_reconcileRule_idle few isItem report _
  refine dumps.bind (root.bind ?_)
  refine (succeeds_reconcileClass_kept (tcClass_parent inPlace) parentSame).bind ?_
  refine (rules _).bind ?_
  refine (succeeds_reconcileClass_kept defaultFound defaultSame).bind ?_
  refine (succeeds_reconcileLeaf_kept leafFound (fqCodelTargetMatches_leaf limiter _)).bind ?_
  refine succeeds_removeStale_idle (stale_eq_nil inPlace small ?_) ?_
  · simp [PerHostLimiter.slots]
  · intro filter member
    rw [builtLive, rootFilters_slotLive fun _ => filters_atRoot] at member
    exact managed_built few member

end

end Nlink.Ratelimit
