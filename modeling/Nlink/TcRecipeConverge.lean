import Nlink.TcRecipeSlots

namespace Nlink.Tc

open Foundation
open TcHandle

/-!
# What a recipe finds missing or as it wants it

An object that is missing is added, and one that is as it should be is left
alone.
-/

variable {opts : ReconcileOptions} {who : String}
variable {tree : LiveTree} {before after : Device}

/-- The options of `reconcile`. -/
def wet : ReconcileOptions := {}

theorem succeeds_unlessDry {context : String} {request : Conn Unit}
    (ends : Succeeds request before () after) :
    Succeeds (unlessDry wet who context request) before () after :=
  succeeds_onlyIf.mpr (succeeds_mapErr ends)

theorem succeeds_reconcileRoot_slots {ifindex defaultMinor : BitVec 32} {parent : HtbClassAttrs}
    {slots : List Slot} {onWhat : String} {minor : BitVec 16} :
    Succeeds
      (reconcileRoot wet who (slotLive ifindex defaultMinor parent slots) onWhat minor)
      ⟨ifindex, some (slotTree defaultMinor parent slots)⟩
      (.below (decide (defaultMinor ≠ minor.setWidth 32)))
      ⟨ifindex, some (slotTree (minor.setWidth 32) parent slots)⟩ := by
  rw [reconcileRoot, rootQdisc_slotLive, rootHtbDefault_slotLive]
  simp only [Option.some.injEq]
  rw [if_pos ⟨rfl, trivial⟩]
  by_cases same : defaultMinor = minor.setWidth 32
  · rw [if_pos same, ← same]
    simp only [ne_eq, not_true_eq_false, decide_false]
    rfl
  · rw [if_neg same, decide_eq_true same]
    exact (succeeds_unlessDry (succeeds_changeRoot _)).bind rfl

section

variable {parent classid : TcHandle} {rate ceil : Rate}
variable {added updated : String}

theorem succeeds_reconcileClass_missing (missing : tree.tcClass classid = none)
    (adds : Succeeds (addClass parent classid { rate, ceil := some ceil }) before () after) :
    Succeeds (reconcileClass wet who tree parent classid rate ceil added updated)
      before .added after := by
  rw [reconcileClass, missing]
  exact (succeeds_unlessDry adds).bind rfl

theorem succeeds_reconcileClass_kept {live : TcClass} (found : tree.tcClass classid = some live)
    (same : htbClassRatesMatch live rate.bytesPerSec ceil.bytesPerSec = true) :
    Succeeds (reconcileClass opts who tree parent classid rate ceil added updated)
      before .kept before := by
  rw [reconcileClass, found]
  simp only [same]
  rfl

end

theorem htbClassRatesMatch_written {live : TcClass} {config : HtbClassConfig}
    (isHtb : live.options = .htb config.writeOptions) (rate ceil : BitVec 64) :
    htbClassRatesMatch live rate ceil =
      (decide (config.rate.bytesPerSec = rate) &&
        decide ((config.ceil.getD config.rate).bytesPerSec = ceil)) := by
  rw [htbClassRatesMatch, htbClassOptions, isHtb]
  simp only [Option.any_some, parseHtbClassOptions_writeOptions]

section

variable {classid leafHandle : TcHandle} {config : QdiscConfig}
variable {isWanted : Qdisc → Bool} {added updated : String}

theorem succeeds_reconcileLeaf_missing (missing : tree.leafFor classid = none)
    (adds : Succeeds (addQdiscFull classid leafHandle config) before () after) :
    Succeeds
      (reconcileLeaf wet who tree classid leafHandle config isWanted added updated)
      before true after := by
  rw [reconcileLeaf, missing]
  exact (succeeds_unlessDry adds).bind rfl

theorem succeeds_reconcileLeaf_kept {live : Qdisc} (found : tree.leafFor classid = some live)
    (same : isWanted live = true) :
    Succeeds
      (reconcileLeaf opts who tree classid leafHandle config isWanted added updated)
      before false before := by
  rw [reconcileLeaf, found]
  simp only [same]
  rfl

end

section

variable {classid : TcHandle} {wrap : Error → Error}
variable {wanted : BitVec 16 × BitVec 16 × FlowerFilter}

theorem succeeds_reconcileFilter_missing (missing : tree.filterAtPriority wanted.2.1 = none)
    (adds : Succeeds (addFilterFull (majorOnly 1) wanted.1 wanted.2.1 wanted.2.2) before () after) :
    Succeeds (reconcileFilter wet tree classid wanted wrap) before true
      after := by
  rw [reconcileFilter]
  simp only [missing]
  have sends : Succeeds (do
        forSome none fun stale : TcFilter =>
          ignoringError (delFilter (majorOnly 1) stale.protocol wanted.2.1)
        mapErr wrap (addFilterFull (majorOnly 1) wanted.1 wanted.2.1 wanted.2.2))
      before () after :=
    (succeeds_forSome.mpr rfl).bind (succeeds_mapErr adds)
  exact sends.bind rfl

theorem succeeds_reconcileFilter_kept {live : TcFilter}
    (found : tree.filterAtPriority wanted.2.1 = some live) (isFlower : live.options.kind = "flower")
    (same : flowerClassid live = some classid) :
    Succeeds (reconcileFilter opts tree classid wanted wrap) before false
      before := by
  rw [reconcileFilter]
  simp only [found, Option.any_some, isFlower, same, decide_true, Bool.and_self]
  rfl

end

theorem succeeds_removeStale_idle {maxMinor : BitVec 16} {isManaged isMapped : BitVec 16 → Bool}
    {report : ReconcileReport} (noClasses : tree.classes.keys.filter (staleClass maxMinor) = [])
    (managed : ∀ filter ∈ tree.rootFilters,
      isManaged filter.priority = true ∧ isMapped filter.priority = true) :
    Succeeds (removeStale opts who tree maxMinor isManaged isMapped report)
      before report before := by
  have allManaged : tree.rootFilters.partition (isManaged ·.priority) = (tree.rootFilters, []) := by
    rw [List.partition_eq_filter_filter]
    refine Prod.ext (List.filter_eq_self.mpr fun filter member =>
      (managed filter member).1) (List.filter_eq_nil_iff.mpr ?_)
    intro filter member outside
    simp [(managed filter member).1] at outside
  have noStale : tree.rootFilters.filter (!isMapped ·.priority) = [] := by
    refine List.filter_eq_nil_iff.mpr fun filter member stale => ?_
    simp [(managed filter member).2] at stale
  rw [removeStale, noClasses]
  simp only [allManaged, noStale, List.map_nil, List.append_nil]
  rfl

end Nlink.Tc
