import Nlink.TcRecipe

namespace Nlink.Ratelimit

open Foundation
open Nlink.Tc
open Nlink.Tc.TcHandle
open Nlink.Tc.Error
open Netlink (ENOENT EEXIST ENODEV EINVAL)

/-!
# Rate limits for an interface

A limiter shapes what leaves an interface with an HTB at its root, and what
enters it with an HTB at the root of another one, an IFB, to which a filter at
the ingress hook sends the packets.
-/

structure RateLimit where
  rate : Rate
  ceil : Option Rate := none
  latency : Option Duration := none

structure RateLimiter where
  egress : Option RateLimit := none
  ingress : Option RateLimit := none

namespace RateLimit

/-- The ceiling of a limit without one is its rate. -/
def ceiling (limit : RateLimit) : Rate :=
  limit.ceil.getD limit.rate

def fqCodel (limit : RateLimit) : QdiscConfig :=
  .fqCodel { target := limit.latency }

end RateLimit

/-!
## The interface and its IFB
-/

/-- `add_u32_redirect_filter`: what is sent, after the flags of the request. -/
structure RedirectRequest where
  create : Bool
  protocol : BitVec 16
  priority : BitVec 16
  selector : List (BitVec 8)
  ifindex : BitVec 32

inductive HookOptions where
  | redirect (request : RedirectRequest)
  | other (kind : String)

structure HookFilter where
  protocol : BitVec 16
  priority : BitVec 16
  options : HookOptions

/-- The qdisc at the ingress hook and its filters. -/
structure IngressHook where
  kind : String
  filters : List HookFilter

structure Ifb where
  device : Device
  isUp : Bool

/-- An interface, with the index that the next link gets. -/
structure Interface where
  device : Device
  hook : Option IngressHook
  ifb : Option Ifb
  nextIfindex : BitVec 32

abbrev Program := EStateM Error Interface

def refuse (errno : Nat) : Program α :=
  throw (.kernel errno)

def onDevice (program : Conn α) : Program α := fun interface =>
  match program interface.device with
  | .ok value device => .ok value { interface with device }
  | .error error device => .error error { interface with device }

def onIfb (program : Conn α) : Program α := fun interface =>
  match interface.ifb with
  | none => .error (.kernel ENODEV) interface
  | some ifb =>
      match program ifb.device with
      | .ok value device => .ok value { interface with ifb := some { ifb with device } }
      | .error error device => .error error { interface with ifb := some { ifb with device } }

/-- `add_link` of the IFB. -/
def addIfbLink : Program Unit := do
  let interface ← get
  match interface.ifb with
  | some _ => refuse EEXIST
  | none =>
      set { interface with
        ifb := some
          { device := { ifindex := interface.nextIfindex, tree := none }
            isUp := false } }

/-- `set_link_up` of the IFB. -/
def setIfbUp : Program Unit := do
  let interface ← get
  match interface.ifb with
  | none => refuse ENODEV
  | some ifb => set { interface with ifb := some { ifb with isUp := true } }

/-- `del_qdisc` of the ingress hook. -/
def delIngressQdisc : Program Unit := do
  let interface ← get
  match interface.hook with
  | none => refuse ENOENT
  | some _ => set { interface with hook := none }

/-- `add_qdisc_full` of the ingress hook. -/
def addIngressQdisc : Program Unit := do
  let interface ← get
  match interface.hook with
  | some _ => throw (withContext "add_qdisc" (.kernel EEXIST))
  | none => set { interface with hook := some { kind := "ingress", filters := [] } }

/-- One key of mask zero, in the octets of the source. -/
def redirectSelector : List (BitVec 8) :=
  [0, 0, 1, 0] ++ List.replicate 24 0

/-- The request of `add_u32_redirect_filter` for an IFB. -/
def redirectTo (ifindex : BitVec 32) : RedirectRequest where
  create := false
  protocol := ETH_P_ALL
  priority := 1
  selector := redirectSelector
  ifindex := ifindex

section

-- What the kernel makes of a u32 filter: nothing when it refuses it.
variable (u32 : RedirectRequest → Option (Packet → Bool))

/-- `add_ingress_redirect`. -/
def addIngressRedirect : Program Unit := do
  let interface ← get
  match interface.ifb, interface.hook with
  | none, _ => throw (.invalidMessage "IFB device not found")
  | some _, none => refuse EINVAL
  | some ifb, some hook =>
      let request := redirectTo ifb.device.ifindex
      if (u32 request).isNone then
        refuse EINVAL
      else
        let filter : HookFilter :=
          { protocol := request.protocol, priority := request.priority
            options := .redirect request }
        set ({ interface with
          hook := some { hook with filters := hook.filters ++ [filter] } } : Interface)

/-!
## Building
-/

namespace RateLimit

/-- The HTB of `apply_egress` and of `apply_ingress`. -/
def applyShape (limit : RateLimit) : Conn Unit := do
  tryCatch (delQdiscFull ROOT none) fun _ => pure ()
  addQdiscFull ROOT (majorOnly 1) (.htb { defaultClass := 0x10 })
  addClass (majorOnly 1) (TcHandle.new 1 1) { rate := limit.rate, ceil := limit.ceil }
  addClass (TcHandle.new 1 1) (TcHandle.new 1 10) { rate := limit.rate, ceil := limit.ceil }
  addQdiscFull (TcHandle.new 1 10) (majorOnly 10) limit.fqCodel

end RateLimit

def applyEgress (limit : RateLimit) : Program Unit :=
  onDevice limit.applyShape

def applyIngress (limit : RateLimit) : Program Unit := do
  onlyIf (← get).ifb.isNone addIfbLink
  setIfbUp
  tryCatch delIngressQdisc fun _ => pure ()
  addIngressQdisc
  addIngressRedirect u32
  onIfb limit.applyShape

/-- `apply`. -/
def RateLimiter.apply (limiter : RateLimiter) : Program Unit := do
  forSome limiter.egress applyEgress
  forSome limiter.ingress (applyIngress u32)

/-!
## Converging
-/

section

variable (opts : ReconcileOptions) (ctx : String)

/-- A request that a dry run does not send. -/
def shapeRequest (context : String) (program : Conn Unit) : Conn Unit :=
  onlyIf (!opts.dryRun)
    (mapErr (withContext ("RateLimiter::reconcile(" ++ ctx ++ "): " ++ context)) program)

/-- The root HTB is added when there is none; one at `1:` is left as it is. -/
def reconcileShapeRoot (tree : LiveTree) : Conn RootStep :=
  match tree.rootQdisc with
  | none => do
      shapeRequest opts ctx "add HTB root"
        (addQdiscFull ROOT (majorOnly 1) (.htb { defaultClass := 0x10 }))
      return .below true
  | some root =>
      if root.options.kind ≠ "htb" ∨ root.handle ≠ majorOnly 1 then
        if opts.fallbackToApply then
          pure .rebuild
        else
          throw (.invalidMessage ("RateLimiter::reconcile(" ++ ctx ++ "): root qdisc is Some(\"" ++
              root.options.kind ++ "\") (handle " ++ root.handle.format ++
              "), not HTB at 1:; pass " ++
              "ReconcileOptions::with_fallback_to_apply(true) to rebuild"))
      else
        pure (.below false)

/-- A class that is missing is added, and one with other rates is changed. -/
def reconcileShapeClass (tree : LiveTree) (parent classid : TcHandle) (limit : RateLimit) :
    Conn Bool :=
  let config : HtbClassConfig := { rate := limit.rate, ceil := some limit.ceiling }
  match tree.tcClass classid with
  | none => do
      shapeRequest opts ctx ("add class " ++ classid.format) (addClass parent classid config)
      return true
  | some live =>
      if htbClassRatesMatch live limit.rate.bytesPerSec limit.ceiling.bytesPerSec then
        pure false
      else do
        shapeRequest opts ctx ("update class " ++ classid.format) (changeClassFull classid config)
        return true

/-- A leaf that is missing is added, and one with another target is
replaced. -/
def reconcileShapeLeaf (tree : LiveTree) (limit : RateLimit) : Conn Bool :=
  match tree.leafFor (TcHandle.new 1 10) with
  | none => do
      shapeRequest opts ctx "add fq_codel leaf"
        (addQdiscFull (TcHandle.new 1 10) (majorOnly 10) limit.fqCodel)
      return true
  | some live =>
      if fqCodelTargetMatches (limit.latency.map (·.asMicros)) live then
        pure false
      else do
        shapeRequest opts ctx "update fq_codel leaf"
          (replaceQdiscFull (TcHandle.new 1 10) (majorOnly 10) limit.fqCodel)
        return true

def addChanges (report : ReconcileReport) (count : Nat) : ReconcileReport :=
  { report with changesMade := report.changesMade + count }

def addRootChange (report : ReconcileReport) : ReconcileReport :=
  { addChanges report 1 with rootModified := true }

/-- `reconcile_htb_shape`; it returns whether everything is to be rebuilt. -/
def reconcileHtbShape (limit : RateLimit) (report : ReconcileReport) :
    Conn (Bool × ReconcileReport) := do
  let tree ← dumpLiveTree
  match ← reconcileShapeRoot opts ctx tree with
  | .rebuild => return (true, addRootChange report)
  | .below changed => do
      let report := if changed then addRootChange report else report
      let parentClass ←
        reconcileShapeClass opts ctx tree (majorOnly 1) (TcHandle.new 1 1) limit
      let tcClass ←
        reconcileShapeClass opts ctx tree (TcHandle.new 1 1) (TcHandle.new 1 10) limit
      let leaf ← reconcileShapeLeaf opts ctx tree limit
      return (false, addChanges report (parentClass.toNat + tcClass.toNat + leaf.toNat))

end

section

variable (opts : ReconcileOptions)

/-- The IFB is added or set up; a dry run without one counts what is to be done
for it.  Returns whether there is one. -/
def reconcileIfb (report : ReconcileReport) : Program (Bool × ReconcileReport) := do
  match (← get).ifb with
  | some ifb =>
      if ifb.isUp then
        return (true, report)
      else do
        onlyIf (!opts.dryRun) setIfbUp
        return (true, addChanges report 1)
  | none =>
      if opts.dryRun then
        return (false, { addChanges report 6 with rootModified := true })
      else do
        addIfbLink
        setIfbUp
        return (true, addChanges report 2)

/-- The ingress hook is added when there is none, and the redirection when the
hook has no filter. -/
def reconcileHook (report : ReconcileReport) : Program ReconcileReport := do
  let hasIngressHook := (← get).hook.any (·.kind = "ingress")
  onlyIf (!hasIngressHook && !opts.dryRun) addIngressQdisc
  let hasRedirect := hasIngressHook && (← get).hook.any fun hook => !hook.filters.isEmpty
  onlyIf (!hasRedirect && !opts.dryRun) (addIngressRedirect u32)
  return addChanges report ((!hasIngressHook).toNat + (!hasRedirect).toNat)

namespace RateLimiter

variable (limiter : RateLimiter)

/-- What a root of another kind leads to. -/
def rebuild (report : ReconcileReport) : Program ReconcileReport := do
  onlyIf (!opts.dryRun) (limiter.apply u32)
  return report

/-- The half for what enters. -/
def reconcileIngress (report : ReconcileReport) : Program ReconcileReport :=
  match limiter.ingress with
  | none => pure report
  | some ingress => do
      let (hasIfb, report) ← reconcileIfb opts report
      let report ← reconcileHook u32 opts report
      if hasIfb then do
        let (rebuilds, report) ←
          onIfb (reconcileHtbShape opts "ingress" ingress report)
        if rebuilds then limiter.rebuild u32 opts report else return report
      else
        return report

/-- `reconcile_with_options`. -/
def reconcileWithOptions : Program ReconcileReport := do
  let report : ReconcileReport := { dryRun := opts.dryRun }
  match limiter.egress with
  | none => limiter.reconcileIngress u32 opts report
  | some egress => do
      let (rebuilds, report) ←
        onDevice (reconcileHtbShape opts "egress" egress report)
      if rebuilds then limiter.rebuild u32 opts report else limiter.reconcileIngress u32 opts report

end RateLimiter

end

/-- `reconcile`. -/
def RateLimiter.reconcile (limiter : RateLimiter) : Program ReconcileReport :=
  limiter.reconcileWithOptions u32 {}

end

/-!
## What `reconcile_htb_shape` leaves

The filters and the default class of the root stay as they are.  The classes
`1:1` and `1:10` get the rates of the limit, and the leaf of `1:10` its target.
-/

namespace RateLimit

def classConfig (limit : RateLimit) : HtbClassConfig where
  rate := limit.rate
  ceil := some limit.ceiling

/-- The class has the rate and the ceiling of the limit. -/
def isRateOf (limit : RateLimit) (tcClass : TcClass) : Bool :=
  htbClassRatesMatch tcClass limit.rate.bytesPerSec limit.ceiling.bytesPerSec

end RateLimit

theorem isRateOf_written {limit : RateLimit} {tcClass : TcClass}
    (isWritten : tcClass.options = .htb limit.classConfig.writeOptions) :
    limit.isRateOf tcClass = true := by
  rw [RateLimit.isRateOf, htbClassRatesMatch, htbClassOptions, isWritten]
  simp only [Option.any_some, parseHtbClassOptions_writeOptions]
  simp [RateLimit.classConfig]

/-!
## The classes that are left
-/

def changedClass (classid : TcHandle) (limit : RateLimit) (tcClass : TcClass) : TcClass :=
  if tcClass.handle = classid then
    { tcClass with options := .htb limit.classConfig.writeOptions }
  else
    tcClass

/-- The classes with one that has the rates of the limit. -/
def withClass (parent classid : TcHandle) (limit : RateLimit) (classes : List TcClass) :
    List TcClass :=
  match lookupBy (·.handle) classes classid with
  | none =>
      classes ++
        [{ handle := classid, parent
           options := .htb limit.classConfig.writeOptions }]
  | some live => if limit.isRateOf live then classes else classes.map (changedClass classid limit)

section

variable {parent classid : TcHandle} {limit : RateLimit}
variable {classes : List TcClass}

theorem changedClass_handle (tcClass : TcClass) :
    (changedClass classid limit tcClass).handle = tcClass.handle := by
  rw [changedClass]
  split
  · rfl
  · rfl

theorem changedClass_parent (tcClass : TcClass) :
    (changedClass classid limit tcClass).parent = tcClass.parent := by
  rw [changedClass]
  split
  · rfl
  · rfl

def addedClass (parent classid : TcHandle) (limit : RateLimit) : TcClass where
  handle := classid
  parent := parent
  options := .htb limit.classConfig.writeOptions

theorem withClass_missing (missing : lookupBy (·.handle) classes classid = none) :
    withClass parent classid limit classes = classes ++ [addedClass parent classid limit] := by
  rw [withClass, missing]
  rfl

theorem withClass_kept {live : TcClass} (found : lookupBy (·.handle) classes classid = some live)
    (isRate : limit.isRateOf live = true) : withClass parent classid limit classes = classes := by
  rw [withClass, found]
  exact if_pos isRate

theorem withClass_changed {live : TcClass} (found : lookupBy (·.handle) classes classid = some live)
    (differs : limit.isRateOf live = false) :
    withClass parent classid limit classes = classes.map (changedClass classid limit) := by
  rw [withClass, found]
  exact if_neg (Bool.eq_false_iff.mp differs)

theorem lookupBy_withClass_self :
    ∃ tcClass, lookupBy (·.handle) (withClass parent classid limit classes) classid = some tcClass ∧
      limit.isRateOf tcClass = true := by
  cases found : lookupBy (·.handle) classes classid with
  | none =>
      refine ⟨addedClass parent classid limit, ?_, isRateOf_written rfl⟩
      have isAdded : (addedClass parent classid limit).handle = classid := rfl
      rw [withClass_missing found, lookupBy_snoc, found, if_pos isAdded, Option.none_or]
  | some live =>
      have isLive := (mem_of_lookupBy found).2
      cases isRate : limit.isRateOf live with
      | true =>
          rw [withClass_kept found isRate]
          exact ⟨live, found, isRate⟩
      | false =>
          rw [withClass_changed found isRate,
            lookupBy_map changedClass_handle, found, Option.map_some]
          refine ⟨_, rfl, ?_⟩
          rw [changedClass, if_pos isLive]
          exact isRateOf_written rfl

theorem lookupBy_withClass_ne {handle : TcHandle} (differ : handle ≠ classid) :
    lookupBy (·.handle) (withClass parent classid limit classes) handle =
      lookupBy (·.handle) classes handle := by
  cases found : lookupBy (·.handle) classes classid with
  | none =>
      have notAdded : (addedClass parent classid limit).handle ≠ handle := differ.symm
      rw [withClass_missing found, lookupBy_snoc, if_neg notAdded, Option.or_none]
  | some live =>
      cases isRate : limit.isRateOf live with
      | true => rw [withClass_kept found isRate]
      | false =>
          rw [withClass_changed found isRate, lookupBy_map changedClass_handle]
          cases other : lookupBy (·.handle) classes handle with
          | none => rfl
          | some tcClass =>
              have isOther := (mem_of_lookupBy other).2
              rw [Option.map_some, changedClass,
                if_neg fun same => differ (isOther.symm.trans same)]

theorem parents_withClass (handle : TcHandle) :
    (withClass parent classid limit classes).any (·.parent = handle) =
      (classes.any (·.parent = handle) ||
        ((lookupBy (·.handle) classes classid).isNone && decide (parent = handle))) := by
  cases found : lookupBy (·.handle) classes classid with
  | none =>
      rw [withClass_missing found]
      simp [addedClass]
  | some live =>
      cases isRate : limit.isRateOf live with
      | true =>
          rw [withClass_kept found isRate]
          simp
      | false =>
          rw [withClass_changed found isRate]
          simp [List.any_map, Function.comp_def, changedClass_parent]

end

/-!
## The run
-/

section

variable {ctx : String} {limit : RateLimit} {live : LiveTree}
variable {before after : Device}

theorem succeeds_shapeRequest {context : String} {program : Conn Unit} :
    Succeeds (shapeRequest {} ctx context program) before () after ↔
      Succeeds program before () after := by
  refine succeeds_onlyIf.trans ?_
  exact ⟨succeeds_of_mapErr, succeeds_mapErr⟩

def withTree (device : Device) (tree : TcTree) : Device :=
  { device with tree := some tree }

theorem sendAck_leaves {act : Option TcTree → Except Nat (Option TcTree)}
    (sent : Succeeds (sendAck act) before () after) :
    ∃ tree, act before.tree = .ok tree ∧ after = { before with tree } := by
  rw [Succeeds, sendAck] at sent
  cases acts : act before.tree with
  | error errno =>
      rw [acts] at sent
      cases sent
  | ok tree =>
      rw [acts] at sent
      cases sent
      exact ⟨tree, rfl, rfl⟩

section

variable {tree : TcTree} {parent classid : TcHandle}
variable {config : HtbClassConfig}

section

variable (isTree : before.tree = some tree)

include isTree

theorem addClass_leaves
    (sent : Succeeds (addClass parent classid config) before () after) :
    after = withTree before
      { tree with
        classes := tree.classes ++
          [{ handle := classid, parent, options := .htb config.writeOptions }]
      } := by
  obtain ⟨left, created, rfl⟩ := sendAck_leaves (succeeds_of_mapErr sent)
  rw [isTree, createClass] at created
  split at created
  · cases created
  · split at created
    · cases created
    · cases created
      rfl

theorem changeClass_leaves
    (sent : Succeeds (changeClassFull classid config) before () after) :
    after = withTree before
      { tree with
        classes := tree.classes.map fun tcClass =>
          if tcClass.handle = classid then
            { tcClass with options := .htb config.writeOptions }
          else
            tcClass } := by
  obtain ⟨left, changed, rfl⟩ := sendAck_leaves (succeeds_of_mapErr sent)
  rw [isTree, changeClass] at changed
  split at changed
  · cases changed
  · cases changed
    rfl

theorem addLeaf_leaves {handle : TcHandle} {qdisc : QdiscConfig}
    (notRoot : parent ≠ ROOT) (sent : Succeeds (addQdiscFull parent handle qdisc) before () after) :
    ∃ leaves, after = withTree before { tree with leaves } := by
  rw [addQdiscFull, sendQdisc] at sent
  split at sent
  · obtain ⟨left, created, rfl⟩ := sendAck_leaves (succeeds_of_mapErr sent)
    rw [isTree, createQdisc, if_neg notRoot] at created
    split at created
    · cases created
    · split at created
      · cases created
      · cases created
        exact ⟨_, rfl⟩
  · exact absurd sent not_succeeds_throw

theorem replaceLeaf_leaves {handle : TcHandle} {qdisc : QdiscConfig} (notRoot : parent ≠ ROOT)
    (sent : Succeeds (replaceQdiscFull parent handle qdisc) before () after) :
    ∃ leaves, after = withTree before { tree with leaves } := by
  rw [replaceQdiscFull, sendQdisc] at sent
  split at sent
  · obtain ⟨left, replaced, rfl⟩ := sendAck_leaves (succeeds_of_mapErr sent)
    rw [isTree, replaceQdisc, if_neg notRoot] at replaced
    split at replaced
    · rw [createQdisc, if_neg notRoot] at replaced
      split at replaced
      · cases replaced
      · split at replaced
        · cases replaced
        · cases replaced
          exact ⟨_, rfl⟩
    · split at replaced
      · cases replaced
      · cases replaced
        exact ⟨_, rfl⟩
  · exact absurd sent not_succeeds_throw

end

end

variable {tree : TcTree}

theorem reconcileShapeClass_leaves (isTree : before.tree = some tree) {parent classid : TcHandle}
    (isLive : live.tcClass classid = lookupBy (·.handle) tree.classes classid) {value : Bool}
    (run : Succeeds (reconcileShapeClass {} ctx live parent classid limit) before value after) :
    after = withTree before
      { tree with
        classes := withClass parent classid limit tree.classes } := by
  rw [reconcileShapeClass, isLive] at run
  cases found : lookupBy (·.handle) tree.classes classid with
  | none =>
      simp only [found] at run
      obtain ⟨_, _, sent, last⟩ := succeeds_bind.mp run
      cases last
      rw [withClass_missing found]
      exact addClass_leaves isTree (succeeds_shapeRequest.mp sent)
  | some tcClass =>
      simp only [found] at run
      cases isRate : limit.isRateOf tcClass with
      | true =>
          have isRates : htbClassRatesMatch tcClass limit.rate.bytesPerSec
              limit.ceiling.bytesPerSec = true :=
            isRate
          rw [if_pos isRates] at run
          cases run
          rw [withClass_kept found isRate, withTree, ← isTree]
      | false =>
          have differs : ¬ htbClassRatesMatch tcClass limit.rate.bytesPerSec
              limit.ceiling.bytesPerSec = true :=
            Bool.eq_false_iff.mp isRate
          rw [if_neg differs] at run
          obtain ⟨_, _, sent, last⟩ := succeeds_bind.mp run
          cases last
          rw [withClass_changed found isRate]
          exact changeClass_leaves isTree (succeeds_shapeRequest.mp sent)

theorem reconcileShapeLeaf_leaves (isTree : before.tree = some tree) {value : Bool}
    (run : Succeeds (reconcileShapeLeaf {} ctx live limit) before value after) :
    ∃ leaves, after = withTree before { tree with leaves } := by
  have notRoot : TcHandle.new 1 10 ≠ ROOT := by decide
  rw [reconcileShapeLeaf] at run
  split at run
  · obtain ⟨_, _, sent, last⟩ := succeeds_bind.mp run
    cases last
    exact addLeaf_leaves isTree notRoot (succeeds_shapeRequest.mp sent)
  · split at run
    · cases run
      exact ⟨tree.leaves, by rw [withTree, ← isTree]⟩
    · obtain ⟨_, _, sent, last⟩ := succeeds_bind.mp run
      cases last
      exact replaceLeaf_leaves isTree notRoot (succeeds_shapeRequest.mp sent)

/-!
## The root
-/

theorem rootQdisc_of_wellFormed (wellFormed : tree.WellFormed) (isTree : before.tree = some tree) :
    before.liveTree.rootQdisc =
      some { parent := ROOT, handle := tree.handle, options := tree.options }
    := by
  have noRoots : tree.leaves.filter (·.parent = ROOT) = [] := by
    refine List.filter_eq_nil_iff.mpr fun leaf member isRoot => ?_
    exact wellFormed.belowRoot leaf member (of_decide_eq_true isRoot)
  have qdiscs : before.qdiscs =
      { parent := ROOT, handle := tree.handle, options := tree.options } ::
        tree.leaves := by
    rw [Device.qdiscs, isTree]
  change (before.qdiscs.filter (·.parent = ROOT)).getLast? = _
  rw [qdiscs, List.filter_cons, noRoots]
  rfl

theorem tcClass_of_wellFormed (wellFormed : tree.WellFormed)
    (isTree : before.tree = some tree) (handle : TcHandle) :
    before.liveTree.tcClass handle = lookupBy (·.handle) tree.classes handle := by
  have distinct : ((tree.classes.map
      fun tcClass => (tcClass.handle, tcClass)).map Prod.fst).Nodup := by
    rw [List.map_map]
    exact wellFormed.handles
  refine Option.ext fun tcClass => ?_
  rw [lookupBy_eq_some_iff wellFormed.handles, LiveTree.tcClass,
    Device.liveTree, Device.classes, isTree]
  rw [BTreeMap.getElem?_ofList distinct, List.mem_map]
  constructor
  · rintro ⟨other, member, same⟩
    cases same
    exact ⟨member, rfl⟩
  · rintro ⟨member, rfl⟩
    exact ⟨tcClass, member, rfl⟩

theorem reconcileShapeRoot_leaves (wellFormed : WellFormed before.tree) {step : RootStep}
    (run : Succeeds (reconcileShapeRoot {} ctx before.liveTree) before step after) :
    (∃ changed, step = .below changed) ∧
      after = withTree before (before.tree.getD (bareTree 0x10)) ∧
      ∀ tree ∈ before.tree, tree.options.kind = "htb" ∧ tree.handle = majorOnly 1 := by
  rw [reconcileShapeRoot] at run
  cases isTree : before.tree with
  | none =>
      have noRoot : before.liveTree.rootQdisc = none := by
        rw [Device.liveTree, Device.qdiscs, isTree]
        rfl
      simp only [noRoot] at run
      obtain ⟨_, _, sent, last⟩ := succeeds_bind.mp run
      cases last
      obtain ⟨ifindex, _⟩ := before
      cases isTree
      have isBare := @succeeds_addRoot ifindex 0x10
      cases isBare.symm.trans (succeeds_shapeRequest.mp sent)
      refine ⟨⟨true, rfl⟩, rfl, ?_⟩
      intro tree member
      cases member
  | some tree =>
      have root := rootQdisc_of_wellFormed (wellFormed tree isTree) isTree
      simp only [root] at run
      split at run
      · exact absurd run not_succeeds_throw
      · rename_i isHtb
        cases run
        refine ⟨⟨false, rfl⟩, ?_, ?_⟩
        · rw [Option.getD_some, withTree, ← isTree]
        · intro other member
          cases member
          rw [not_or, not_not, not_not] at isHtb
          exact isHtb

def shapedClasses (limit : RateLimit) (classes : List TcClass) : List TcClass :=
  withClass (TcHandle.new 1 1) (TcHandle.new 1 10) limit
    (withClass (majorOnly 1) (TcHandle.new 1 1) limit classes)

theorem reconcileHtbShape_leaves (wellFormed : WellFormed before.tree) {report : ReconcileReport}
    {value : Bool × ReconcileReport}
    (run : Succeeds (reconcileHtbShape {} ctx limit report) before value after) :
    value.1 = false ∧
      (∀ tree ∈ before.tree, tree.options.kind = "htb" ∧ tree.handle = majorOnly 1) ∧
      ∃ leaves, after = withTree before
        { before.tree.getD (bareTree 0x10) with
          classes := shapedClasses limit (before.tree.getD (bareTree 0x10)).classes
          leaves } := by
  have dumps : Succeeds dumpLiveTree before before.liveTree before := rfl
  have rest := dumps.rest_iff.mp run
  obtain ⟨step, afterRoot, root, rest⟩ := succeeds_bind.mp rest
  obtain ⟨⟨changed, rfl⟩, rfl, isRoot⟩ := reconcileShapeRoot_leaves wellFormed root
  have isLive : ∀ handle, before.liveTree.tcClass handle =
      lookupBy (·.handle) (before.tree.getD (bareTree 0x10)).classes
        handle := by
    intro handle
    cases isTree : before.tree with
    | none =>
        rw [LiveTree.tcClass, Device.liveTree, Device.classes, isTree]
        rfl
    | some tree => exact tcClass_of_wellFormed (wellFormed tree isTree) isTree handle
  obtain ⟨_, _, first, rest⟩ := succeeds_bind.mp rest
  have afterFirst := reconcileShapeClass_leaves rfl (isLive _) first
  subst afterFirst
  obtain ⟨_, _, second, rest⟩ := succeeds_bind.mp rest
  have isLiveSecond : before.liveTree.tcClass (TcHandle.new 1 10) =
      lookupBy (·.handle) (withClass (majorOnly 1) (TcHandle.new 1 1) limit
        (before.tree.getD (bareTree 0x10)).classes) (TcHandle.new 1 10) := by
    rw [isLive, lookupBy_withClass_ne (by decide)]
  have afterSecond := reconcileShapeClass_leaves rfl isLiveSecond second
  subst afterSecond
  obtain ⟨_, _, third, rest⟩ := succeeds_bind.mp rest
  obtain ⟨leaves, rfl⟩ := reconcileShapeLeaf_leaves rfl third
  cases rest
  exact ⟨rfl, isRoot, leaves, rfl⟩

end

/-!
## What a limiter shapes

Packets are shaped in the class `1:10`.  A root that `apply` or `reconcile` adds
has the default class `1:16`, so only packets that a live root sends to `1:10`
are shaped.
-/

section

variable (others : String → Packet → Option (Option TcHandle))

/-- A packet is queued in the class `1:10`, with the rates of the limit. -/
def RateLimit.QueuesIn (limit : RateLimit) (tree : TcTree) (packet : Packet) : Prop :=
  ∃ tcClass, tree.queue others packet = some tcClass ∧
    tcClass.handle = TcHandle.new 1 10 ∧ limit.isRateOf tcClass = true

/-- Every packet is queued in that class. -/
def RateLimit.Shapes (limit : RateLimit) (device : Device) : Prop :=
  ∃ tree, device.tree = some tree ∧ ∀ packet, limit.QueuesIn others tree packet

/-- The tree has a class in which packets can be queued besides `1:10`, once
`1:1` and `1:10` are there. -/
def hasOtherLeaf (tree : TcTree) (handle : TcHandle) : Bool :=
  handle ≠ TcHandle.new 1 10 && (handle = TcHandle.new 1 1 || tree.hasClass handle) &&
    !tree.classes.any (·.parent = handle) &&
    !(handle = TcHandle.new 1 1 && !tree.hasClass (TcHandle.new 1 10)) &&
    !(handle = majorOnly 1 && !tree.hasClass (TcHandle.new 1 1))

/-- The filters and the default class of the root send every packet to `1:10`,
which has no classes under it. -/
structure Funnels (tree : TcTree) : Prop where
  noneUnder : tree.classes.any (·.parent = TcHandle.new 1 10) = false
  packets : ∀ packet, tree.selected others packet = some (TcHandle.new 1 10) ∨
      tree.defaultHandle = TcHandle.new 1 10 ∧ ∀ handle ∈ tree.selected others packet,
          hasOtherLeaf tree handle = false

end

section

variable {others : String → Packet → Option (Option TcHandle)}
variable {limit : RateLimit} {tree : TcTree}

variable {handle : TcHandle}

theorem hasClass_iff : tree.hasClass handle =
      (lookupBy (·.handle) tree.classes handle).isSome := by
  rw [Bool.eq_iff_iff, TcTree.hasClass, lookupBy, List.find?_isSome, List.any_eq_true]

def shapedTree (limit : RateLimit) (tree : TcTree) (leaves : List Qdisc) : TcTree :=
  { tree with classes := shapedClasses limit tree.classes, leaves }

theorem parents_shaped (handle : TcHandle) :
    (shapedClasses limit tree.classes).any (·.parent = handle) =
      (tree.classes.any (·.parent = handle) ||
        (!tree.hasClass (TcHandle.new 1 1) && handle = majorOnly 1) ||
        (!tree.hasClass (TcHandle.new 1 10) && handle = TcHandle.new 1 1))
    := by
  rw [shapedClasses, parents_withClass, parents_withClass, lookupBy_withClass_ne (by decide),
    hasClass_iff, hasClass_iff, Option.not_isSome, Option.not_isSome]
  simp only [eq_comm]

theorem lookupBy_shaped_ten : ∃ tcClass, lookupBy (·.handle) (shapedClasses limit tree.classes)
        (TcHandle.new 1 10) = some tcClass ∧
      limit.isRateOf tcClass = true :=
  lookupBy_withClass_self

theorem lookupBy_shaped_isSome (differ : handle ≠ TcHandle.new 1 10) :
    (lookupBy (·.handle) (shapedClasses limit tree.classes) handle).isSome =
      (handle = TcHandle.new 1 1 || tree.hasClass handle) := by
  rw [shapedClasses, lookupBy_withClass_ne differ]
  by_cases isOne : handle = TcHandle.new 1 1
  · subst isOne
    obtain ⟨tcClass, found, _⟩ := @lookupBy_withClass_self (majorOnly 1)
      (TcHandle.new 1 1) limit tree.classes
    rw [found, decide_eq_true rfl]
    rfl
  · rw [lookupBy_withClass_ne isOne, hasClass_iff, decide_eq_false isOne, Bool.false_or]

/-!
## Leaf classes
-/

theorem leafClass_handle {tcClass : TcClass}
    (found : tree.leafClass handle = some tcClass) : tcClass.handle = handle := by
  rw [TcTree.leafClass] at found
  split at found
  · cases found
  · exact (mem_of_lookupBy found).2

theorem parents_shaped_ten : (shapedClasses limit tree.classes).any (·.parent = TcHandle.new 1 10) =
      tree.classes.any (·.parent = TcHandle.new 1 10) := by
  have notRoot : decide (TcHandle.new 1 10 = majorOnly 1) = false := by decide
  have notOne : decide (TcHandle.new 1 10 = TcHandle.new 1 1) = false := by decide
  rw [parents_shaped, notRoot, notOne, Bool.and_false, Bool.and_false, Bool.or_false, Bool.or_false]

theorem leafClass_ten {leaves : List Qdisc}
    (noneUnder : tree.classes.any (·.parent = TcHandle.new 1 10) = false) :
    ∃ tcClass, (shapedTree limit tree leaves).leafClass (TcHandle.new 1 10) = some tcClass ∧
      limit.isRateOf tcClass = true := by
  obtain ⟨tcClass, found, isRate⟩ := @lookupBy_shaped_ten limit tree
  refine ⟨tcClass, ?_, isRate⟩
  have isLeaf : (shapedTree limit tree leaves).classes.any (·.parent = TcHandle.new 1 10) = false :=
    parents_shaped_ten.trans noneUnder
  rw [TcTree.leafClass, isLeaf]
  exact found

variable {leaves : List Qdisc}

theorem noneUnder_of_leafClass {tcClass : TcClass}
    (found : (shapedTree limit tree leaves).leafClass (TcHandle.new 1 10) = some tcClass) :
    tree.classes.any (·.parent = TcHandle.new 1 10) = false := by
  rw [TcTree.leafClass] at found
  split at found
  · cases found
  · rename_i isLeaf
    rw [← @parents_shaped_ten limit]
    exact Bool.eq_false_iff.mpr isLeaf

theorem leafClass_isSome {leaves : List Qdisc} {handle : TcHandle}
    (differ : handle ≠ TcHandle.new 1 10) :
    ((shapedTree limit tree leaves).leafClass handle).isSome = hasOtherLeaf tree handle := by
  have parents : (shapedTree limit tree leaves).classes.any (·.parent = handle) = _ :=
    parents_shaped handle
  have isLeaf : ((shapedTree limit tree leaves).leafClass handle).isSome =
      ((lookupBy (·.handle) (shapedClasses limit tree.classes) handle).isSome
        && !(shapedTree limit tree leaves).classes.any (·.parent = handle)) := by
    rw [TcTree.leafClass]
    split
    · rename_i isParent
      rw [isParent, Bool.not_true, Bool.and_false]
      rfl
    · rename_i isLeaf
      rw [Bool.eq_false_iff.mpr isLeaf, Bool.not_false, Bool.and_true]
      rfl
  rw [isLeaf, parents, lookupBy_shaped_isSome differ, hasOtherLeaf,
    decide_eq_true differ, Bool.true_and]
  simp only [Bool.not_or, Bool.not_and, Bool.or_comm, Bool.and_comm, Bool.and_left_comm]

/-!
## Which queue
-/

/-- In the tree that is left a packet is queued in `1:10` when it is sent
there, or when it is sent nowhere else and `1:10` is the default class. -/
theorem queuesIn_shaped_iff {packet : Packet} :
    limit.QueuesIn others (shapedTree limit tree leaves) packet ↔
      tree.classes.any (·.parent = TcHandle.new 1 10) = false ∧
        (tree.selected others packet = some (TcHandle.new 1 10) ∨
          tree.defaultHandle = TcHandle.new 1 10 ∧ ∀ handle ∈ tree.selected others packet,
              hasOtherLeaf tree handle = false) := by
  have queue : (shapedTree limit tree leaves).queue others packet =
      ((tree.selected others packet).bind (shapedTree limit tree leaves).leafClass).or
          ((shapedTree limit tree leaves).leafClass tree.defaultHandle) :=
    rfl
  rw [RateLimit.QueuesIn, queue]
  constructor
  · rintro ⟨tcClass, isQueue, isTen, _⟩
    rcases Option.or_eq_some_iff.mp isQueue with sent | ⟨notSent, isDefault⟩
    · obtain ⟨handle, isSelected, found⟩ := Option.bind_eq_some_iff.mp sent
      have same := (leafClass_handle found).symm.trans isTen
      subst same
      exact ⟨noneUnder_of_leafClass found, .inl isSelected⟩
    · have same := (leafClass_handle isDefault).symm.trans isTen
      rw [same] at isDefault
      refine ⟨noneUnder_of_leafClass isDefault, .inr ⟨same, ?_⟩⟩
      intro handle isSelected
      by_cases isTenth : handle = TcHandle.new 1 10
      · rw [hasOtherLeaf, isTenth]
        simp
      · rw [← @leafClass_isSome limit tree leaves handle isTenth]
        rw [Option.mem_def.mp isSelected, Option.bind_some] at notSent
        rw [notSent]
        rfl
  · rintro ⟨noneUnder, sent⟩
    obtain ⟨tcClass, found, isRate⟩ := @leafClass_ten limit tree leaves noneUnder
    refine ⟨tcClass, ?_, leafClass_handle found, isRate⟩
    rcases sent with isSelected | ⟨isDefault, nowhere⟩
    · rw [isSelected, Option.bind_some, found, Option.some_or]
    · rw [isDefault, found]
      cases isSelected : tree.selected others packet with
      | none => rfl
      | some handle =>
          rw [Option.bind_some]
          by_cases isTenth : handle = TcHandle.new 1 10
          · rw [isTenth, found, Option.some_or]
          · have isNone := nowhere handle isSelected
            rw [← @leafClass_isSome limit tree leaves handle isTenth] at isNone
            rw [Option.isSome_eq_false_iff, Option.isNone_iff_eq_none] at isNone
            rw [isNone, Option.none_or]

theorem selected_of_noFilters (noFilters : tree.filters = []) (packet : Packet) :
    tree.selected others packet = none := by
  rw [TcTree.selected, TcTree.tried, noFilters, List.filter_nil]
  simp [sortByKey]

theorem one_ne_sixteen : TcHandle.new 1 1 ≠ TcHandle.new 1 0x10 := by
  decide

theorem ten_ne_sixteen : TcHandle.new 1 10 ≠ TcHandle.new 1 0x10 := by
  decide

def anyPacket : Packet where
  srcMac := 0
  dstMac := 0
  vlan := none
  network := .other ETH_P_ALL (by decide)

theorem not_queuesIn_fresh {classes : List TcClass}
    (handles : ∀ tcClass ∈ classes, tcClass.handle ≠ TcHandle.new 1 0x10) (packet : Packet) :
    ¬ limit.QueuesIn others { bareTree 0x10 with classes, leaves } packet := by
  rintro ⟨tcClass, isQueue, _, _⟩
  have noneSelected := @selected_of_noFilters others
    { bareTree 0x10 with classes, leaves } rfl packet
  rw [TcTree.queue, noneSelected, Option.bind_none, Option.none_or] at isQueue
  have isSixteen : TcHandle.new (major (majorOnly 1)) (minor 0x10) = TcHandle.new 1 0x10 := by
    decide
  have isDefault : ({ bareTree 0x10 with classes, leaves } : TcTree).defaultHandle =
        TcHandle.new (major (majorOnly 1)) (minor 0x10) :=
    rfl
  rw [isDefault, isSixteen, TcTree.leafClass] at isQueue
  split at isQueue
  · cases isQueue
  · obtain ⟨member, isHandle⟩ := mem_of_lookupBy isQueue
    exact handles tcClass member isHandle

theorem shapes_iff {ctx : String} {before after : Device} (wellFormed : WellFormed before.tree)
    {report : ReconcileReport} {value : Bool × ReconcileReport}
    (run : Succeeds (reconcileHtbShape {} ctx limit report) before value after) :
    limit.Shapes others after ↔ ∃ tree ∈ before.tree, Funnels others tree := by
  obtain ⟨_, _, leaves, rfl⟩ := reconcileHtbShape_leaves wellFormed run
  cases isTree : before.tree with
  | none =>
      refine iff_of_false ?_ ?_
      · rintro ⟨tree, isShaped, all⟩
        cases isShaped
        refine not_queuesIn_fresh ?_ anyPacket (all anyPacket)
        intro tcClass member
        have isClass : tcClass ∈
            [addedClass (majorOnly 1) (TcHandle.new 1 1) limit,
              addedClass (TcHandle.new 1 1) (TcHandle.new 1 10) limit] :=
          member
        rcases List.mem_cons.mp isClass with rfl | isSecond
        · exact one_ne_sixteen
        · rw [List.mem_singleton.mp isSecond]
          exact ten_ne_sixteen
      · rintro ⟨tree, member, _⟩
        cases member
  | some tree =>
      have isShaped : (withTree before (shapedTree limit tree leaves)).tree = some _ := rfl
      constructor
      · rintro ⟨other, isOther, all⟩
        cases isShaped.symm.trans isOther
        refine ⟨tree, rfl, ?_, fun packet => ?_⟩
        · exact (queuesIn_shaped_iff.mp (all anyPacket)).1
        · exact (queuesIn_shaped_iff.mp (all packet)).2
      · rintro ⟨other, isOther, funnels⟩
        cases isOther
        refine ⟨_, rfl, fun packet => ?_⟩
        exact queuesIn_shaped_iff.mpr ⟨funnels.noneUnder, funnels.packets packet⟩

end

end Nlink.Ratelimit
