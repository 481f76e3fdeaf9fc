import Nlink.RateLimiter

namespace Nlink.Ratelimit

open Foundation
open Nlink.Tc
open Nlink.Tc.TcHandle

/-!
# When a limiter shapes all packets

What leaves an interface is shaped by the tree of the interface, and what enters
it by the tree of the IFB, when the ingress hook sends it there.
-/

section

-- What filters of other kinds do with a packet, at a root and at the ingress
-- hook, and what the kernel makes of a u32 filter.
variable (others : String → Packet → Option (Option TcHandle))
variable (hookOthers : String → Packet → Option (Option (BitVec 32)))
variable (u32 : RedirectRequest → Option (Packet → Bool))

/-- What a filter at the hook does with a packet: nothing, or a match that may
send it to another interface. -/
def HookFilter.result (filter : HookFilter) (packet : Packet) : Option (Option (BitVec 32)) :=
  match filter.options with
  | .redirect request => if (u32 request).any (· packet) then some (some request.ifindex) else none
  | .other kind => hookOthers kind packet

/-- The filter is for the protocol of the packet. -/
def HookFilter.isFor (filter : HookFilter) (packet : Packet) : Bool :=
  filter.protocol = packet.networkType || filter.protocol = ETH_P_ALL

namespace Interface

def hookFilters (interface : Interface) : List HookFilter :=
  (interface.hook.map IngressHook.filters).getD []

/-- The interface to which the hook sends a packet. -/
def sentTo (interface : Interface) (packet : Packet) : Option (BitVec 32) :=
  ((sortByKey (·.priority.toNat) (interface.hookFilters.filter (·.isFor packet))).findSome?
      (·.result hookOthers u32 packet)).join

/-- The trees of the interface and its IFB are ones that requests build. -/
structure WellFormed (interface : Interface) : Prop where
  device : Tc.WellFormed interface.device.tree
  ifb : ∀ ifb ∈ interface.ifb, Tc.WellFormed ifb.device.tree

end Interface

/-- Every packet that enters the interface is sent to its IFB and shaped
there. -/
def RateLimit.ShapesEntering (limit : RateLimit) (interface : Interface) : Prop :=
  ∃ ifb, interface.ifb = some ifb ∧ ifb.isUp = true ∧
    (∀ packet, interface.sentTo hookOthers u32 packet = some ifb.device.ifindex) ∧
    limit.Shapes others ifb.device

/-- Every packet that leaves or enters the interface is queued in the class of
its limit. -/
structure RateLimiter.ShapesAll (limiter : RateLimiter) (interface : Interface) : Prop where
  leaving : ∀ limit ∈ limiter.egress, limit.Shapes others interface.device
  entering : ∀ limit ∈ limiter.ingress, limit.ShapesEntering others hookOthers u32 interface

/-- The hook sends every packet to an interface, or has no filter yet and the
filter that is added matches every packet. -/
def Interface.Redirects (interface : Interface) (ifindex : BitVec 32) : Prop :=
  ∀ packet, if interface.hookFilters = [] then
    (u32 (redirectTo ifindex)).any (· packet) = true
  else
    interface.sentTo hookOthers u32 packet = some ifindex

/-- What the interface is to have for a limiter before `reconcile`. -/
structure RateLimiter.Reconcilable (limiter : RateLimiter) (interface : Interface) : Prop where
  egress : limiter.egress.isSome = true → ∃ tree ∈ interface.device.tree, Funnels others tree
  ingress : limiter.ingress.isSome = true → ∃ ifb ∈ interface.ifb,
      (∃ tree ∈ ifb.device.tree, Funnels others tree) ∧
      interface.Redirects hookOthers u32 ifb.device.ifindex

end

section

variable {others : String → Packet → Option (Option TcHandle)}
variable {hookOthers : String → Packet → Option (Option (BitVec 32))}
variable {u32 : RedirectRequest → Option (Packet → Bool)}
variable {before after : Interface} {α : Type}

/-!
## Programs for one of the two
-/

variable {program : Conn α}

theorem onDevice_leaves {value : α} (run : Succeeds (onDevice program) before value after) :
    ∃ device, Succeeds program before.device value device ∧ after = { before with device } := by
  rw [Succeeds, onDevice] at run
  cases runs : program before.device with
  | error error device =>
      rw [runs] at run
      cases run
  | ok result device =>
      rw [runs] at run
      cases run
      exact ⟨device, runs, rfl⟩

theorem onIfb_leaves {value : α} (run : Succeeds (onIfb program) before value after) :
    ∃ ifb device, before.ifb = some ifb ∧ Succeeds program ifb.device value device ∧
      after = { before with ifb := some { ifb with device } } := by
  rw [Succeeds, onIfb] at run
  cases isIfb : before.ifb with
  | none =>
      rw [isIfb] at run
      cases run
  | some ifb =>
      simp only [isIfb] at run
      cases runs : program ifb.device with
      | error error device =>
          rw [runs] at run
          cases run
      | ok result device =>
          rw [runs] at run
          cases run
          exact ⟨ifb, device, rfl, runs, rfl⟩

/-!
## Building
-/

theorem not_shapes_built {limit : RateLimit} {device built : Device}
    (run : Succeeds limit.applyShape device () built) : ¬ limit.Shapes others built := by
  obtain ⟨ifindex, tree⟩ := device
  have deletes : Succeeds (tryCatch (delQdiscFull ROOT none) fun _ => pure ())
      ⟨ifindex, tree⟩ () ⟨ifindex, none⟩ :=
    succeeds_delRoot tree
  have addsRoot := @succeeds_addRoot ifindex 0x10
  have rest := addsRoot.rest_iff.mp (deletes.rest_iff.mp run)
  obtain ⟨_, _, first, rest⟩ := succeeds_bind.mp rest
  have afterFirst := addClass_leaves rfl first
  subst afterFirst
  obtain ⟨_, _, second, third⟩ := succeeds_bind.mp rest
  have afterSecond := addClass_leaves rfl second
  subst afterSecond
  obtain ⟨leaves, rfl⟩ := addLeaf_leaves rfl (by decide) third
  rintro ⟨_, isTree, all⟩
  cases isTree
  refine not_queuesIn_fresh ?_ anyPacket (all anyPacket)
  intro tcClass member
  rcases List.mem_cons.mp member with rfl | isSecond
  · exact one_ne_sixteen
  · rw [List.mem_singleton.mp isSecond]
    exact ten_ne_sixteen

/-!
## What is not done to the interface
-/

theorem keeps_addIfbLink : Keeps Interface.device addIfbLink := by
  intro interface
  obtain ⟨device, hook, ifb, nextIfindex⟩ := interface
  cases ifb with
  | none => rfl
  | some ifb => rfl

theorem keeps_setIfbUp : Keeps Interface.device setIfbUp := by
  intro interface
  obtain ⟨device, hook, ifb, nextIfindex⟩ := interface
  cases ifb with
  | none => rfl
  | some ifb => rfl

theorem keeps_delIngressQdisc : Keeps Interface.device delIngressQdisc := by
  intro interface
  obtain ⟨device, hook, ifb, nextIfindex⟩ := interface
  cases hook with
  | none => rfl
  | some hook => rfl

theorem keeps_addIngressQdisc : Keeps Interface.device addIngressQdisc := by
  intro interface
  obtain ⟨device, hook, ifb, nextIfindex⟩ := interface
  cases hook with
  | none => rfl
  | some hook => rfl

variable {ifb : Ifb}

theorem addIngressRedirect_eq {device : Device} {hook : IngressHook} {nextIfindex : BitVec 32} :
    addIngressRedirect u32 ⟨device, some hook, some ifb, nextIfindex⟩ =
      if (u32 (redirectTo ifb.device.ifindex)).isNone then
        .error (.kernel Netlink.EINVAL) ⟨device, some hook, some ifb, nextIfindex⟩
      else
        .ok ()
          ⟨device, some { hook with
              filters := hook.filters ++
                [{ protocol := ETH_P_ALL, priority := 1
                   options := .redirect (redirectTo ifb.device.ifindex) }] },
            some ifb, nextIfindex⟩ := by
  have runs : addIngressRedirect u32 ⟨device, some hook, some ifb, nextIfindex⟩ =
      (if (u32 (redirectTo ifb.device.ifindex)).isNone then
        refuse Netlink.EINVAL
      else
        set (⟨device, some { hook with
            filters := hook.filters ++
              [{ protocol := ETH_P_ALL, priority := 1
                 options := .redirect (redirectTo ifb.device.ifindex) }] },
          some ifb, nextIfindex⟩ : Interface) : Program Unit)
        ⟨device, some hook, some ifb, nextIfindex⟩ :=
    rfl
  rw [runs]
  split
  · rfl
  · rfl

theorem keeps_addIngressRedirect : Keeps Interface.device (addIngressRedirect u32) := by
  intro interface
  obtain ⟨device, hook, ifb, nextIfindex⟩ := interface
  cases ifb with
  | none => rfl
  | some ifb =>
      cases hook with
      | none => rfl
      | some hook =>
          rw [addIngressRedirect_eq]
          split
          · rfl
          · rfl

theorem keeps_onIfb : Keeps Interface.device (onIfb program) := by
  intro interface
  rw [onIfb]
  cases interface.ifb with
  | none => rfl
  | some ifb =>
      simp only
      cases program ifb.device with
      | error error device => rfl
      | ok value device => rfl

theorem keeps_applyIngress {limit : RateLimit} :
    Keeps Interface.device (applyIngress u32 limit) := by
  refine Keeps.bind (fun _ => rfl) fun interface => ?_
  refine Keeps.bind keeps_addIfbLink.onlyIf fun _ => ?_
  refine Keeps.bind keeps_setIfbUp fun _ => ?_
  refine Keeps.bind (keeps_delIngressQdisc.tryCatch fun _ => Keeps.pure ()) fun _ => ?_
  refine Keeps.bind keeps_addIngressQdisc fun _ => ?_
  exact Keeps.bind keeps_addIngressRedirect fun _ => keeps_onIfb

theorem applyIngress_last {limit : RateLimit}
    (run : Succeeds (applyIngress u32 limit) before () after) :
    ∃ middle, Succeeds (onIfb limit.applyShape) middle () after := by
  obtain ⟨_, _, _, rest⟩ := succeeds_bind.mp run
  obtain ⟨_, _, _, rest⟩ := succeeds_bind.mp rest
  obtain ⟨_, _, _, rest⟩ := succeeds_bind.mp rest
  obtain ⟨_, _, _, rest⟩ := succeeds_bind.mp rest
  obtain ⟨_, _, _, rest⟩ := succeeds_bind.mp rest
  obtain ⟨_, middle, _, last⟩ := succeeds_bind.mp rest
  exact ⟨middle, last⟩

variable {limiter : RateLimiter}

theorem apply_shapesAll_iff (run : Succeeds (limiter.apply u32) before () after) :
    limiter.ShapesAll others hookOthers u32 after ↔
      limiter.egress = none ∧ limiter.ingress = none := by
  obtain ⟨_, between, egress, ingress⟩ := succeeds_bind.mp run
  constructor
  · intro shapes
    constructor
    · cases isEgress : limiter.egress with
      | none => rfl
      | some limit =>
          have shaped := shapes.leaving limit isEgress
          rw [isEgress] at egress
          obtain ⟨device, builds, rfl⟩ := onDevice_leaves egress
          have same := (Keeps.forSome fun limit => @keeps_applyIngress u32 limit).succeeds ingress
          rw [same] at shaped
          exact absurd shaped (not_shapes_built builds)
    · cases isIngress : limiter.ingress with
      | none => rfl
      | some limit =>
          obtain ⟨ifb, isIfb, _, _, shaped⟩ := shapes.entering limit isIngress
          rw [isIngress] at ingress
          obtain ⟨_, last⟩ := applyIngress_last ingress
          obtain ⟨_, device, _, builds, rfl⟩ := onIfb_leaves last
          cases isIfb
          exact absurd shaped (not_shapes_built builds)
  · rintro ⟨noEgress, noIngress⟩
    constructor
    · intro limit member
      rw [noEgress] at member
      cases member
    · intro limit member
      rw [noIngress] at member
      cases member

/-!
## Converging
-/

def Interface.ifbOrFresh (interface : Interface) : Ifb :=
  interface.ifb.getD
    { device := { ifindex := interface.nextIfindex, tree := none }
      isUp := false }

theorem reconcileIfb_leaves {report : ReconcileReport} {value : Bool × ReconcileReport}
    (run : Succeeds (reconcileIfb {} report) before value after) :
    value.1 = true ∧
      after = { before with
        ifb := some { before.ifbOrFresh with isUp := true } } := by
  obtain ⟨device, hook, ifb, nextIfindex⟩ := before
  cases ifb with
  | none =>
      cases run
      exact ⟨rfl, rfl⟩
  | some ifb =>
      obtain ⟨ifbDevice, isUp⟩ := ifb
      cases isUp with
      | true | false =>
          cases run
          exact ⟨rfl, rfl⟩

/-- The filters at the hook, with one that redirects when there was none. -/
def Interface.filtersOrRedirect (interface : Interface) (ifindex : BitVec 32) : List HookFilter :=
  if interface.hookFilters = [] then
    [{ protocol := ETH_P_ALL, priority := 1
       options := .redirect (redirectTo ifindex) }]
  else
    interface.hookFilters

theorem addIngressRedirect_leaves {device : Device} {hook : IngressHook} {nextIfindex : BitVec 32}
    (run : Succeeds (addIngressRedirect u32) ⟨device, some hook, some ifb, nextIfindex⟩ () after) :
    after = ⟨device, some { hook with
        filters := hook.filters ++
          [{ protocol := ETH_P_ALL, priority := 1
             options := .redirect (redirectTo ifb.device.ifindex) }] },
      some ifb, nextIfindex⟩ := by
  rw [Succeeds, addIngressRedirect_eq] at run
  split at run
  · cases run
  · cases run
    rfl

theorem reconcileHook_leaves {report result : ReconcileReport} (isIfb : before.ifb = some ifb)
    (run : Succeeds (reconcileHook u32 {} report) before result after) :
    ∃ hook, after = { before with hook := some hook } ∧
      hook.filters = before.filtersOrRedirect ifb.device.ifindex := by
  obtain ⟨device, hook, _, nextIfindex⟩ := before
  cases isIfb
  obtain ⟨_, _, reads, rest⟩ := succeeds_bind.mp run
  cases reads
  obtain ⟨_, middle, adds, rest⟩ := succeeds_bind.mp rest
  obtain ⟨_, _, readsAgain, rest⟩ := succeeds_bind.mp rest
  cases readsAgain
  obtain ⟨_, last, redirects, rest⟩ := succeeds_bind.mp rest
  cases rest
  cases hook with
  | none =>
      cases adds
      have sent : Succeeds (addIngressRedirect u32) _ () after := succeeds_onlyIf.mp redirects
      have isAfter := addIngressRedirect_leaves sent
      subst isAfter
      exact ⟨_, rfl, rfl⟩
  | some hook =>
      by_cases isIngress : hook.kind = "ingress"
      · have hasHook : Option.any (fun hook : IngressHook =>
            decide (hook.kind = "ingress")) (some hook) = true :=
          decide_eq_true isIngress
        simp only [hasHook] at adds redirects
        cases adds
        rw [Interface.filtersOrRedirect, Interface.hookFilters, Option.map_some, Option.getD_some]
        cases filters : hook.filters with
        | nil =>
            have sent : Succeeds (addIngressRedirect u32)
                ⟨device, some hook, some ifb, nextIfindex⟩ () after := by
              have condition := succeeds_onlyIf.mp redirects
              rw [Option.any_some, filters] at condition
              exact condition
            have isAfter := addIngressRedirect_leaves sent
            subst isAfter
            refine ⟨_, rfl, ?_⟩
            rw [filters]
            rfl
        | cons filter rest =>
            have condition := succeeds_onlyIf.mp redirects
            rw [Option.any_some, filters] at condition
            cases condition
            exact ⟨hook, rfl, filters⟩
      · have noHook : Option.any (fun hook : IngressHook =>
            decide (hook.kind = "ingress")) (some hook) = false :=
          decide_eq_false isIngress
        simp only [noHook] at adds
        cases adds

theorem sentTo_iff_redirects {ifindex : BitVec 32}
    (filters : after.hookFilters = before.filtersOrRedirect ifindex) :
    (∀ packet, after.sentTo hookOthers u32 packet = some ifindex) ↔
      before.Redirects hookOthers u32 ifindex := by
  refine forall_congr' fun packet => ?_
  rw [Interface.sentTo, filters, Interface.filtersOrRedirect]
  by_cases noFilters : before.hookFilters = []
  · rw [if_pos noFilters, if_pos noFilters]
    have isFor : HookFilter.isFor
        { protocol := ETH_P_ALL, priority := 1
          options := .redirect (redirectTo ifindex) } packet = true := by
      simp [HookFilter.isFor]
    rw [List.filter_singleton, isFor]
    simp only [sortByKey, cond_true, List.mergeSort_singleton,
      List.findSome?_singleton, HookFilter.result]
    cases (u32 (redirectTo ifindex)).any (· packet) with
    | false => simp
    | true =>
        rw [if_pos rfl]
        simp [redirectTo]
  · rw [if_neg noFilters, if_neg noFilters, Interface.sentTo]

theorem reconcileIngress_iff (wellFormed : ∀ ifb ∈ before.ifb, Tc.WellFormed ifb.device.tree)
    {report result : ReconcileReport}
    (run : Succeeds (limiter.reconcileIngress u32 {} report) before result after) :
    after.device = before.device ∧
      ((∀ limit ∈ limiter.ingress, limit.ShapesEntering others hookOthers u32 after) ↔
        (limiter.ingress.isSome = true → ∃ ifb ∈ before.ifb,
            (∃ tree ∈ ifb.device.tree, Funnels others tree) ∧
            before.Redirects hookOthers u32 ifb.device.ifindex)) := by
  rw [RateLimiter.reconcileIngress] at run
  cases isIngress : limiter.ingress with
  | none =>
      rw [isIngress] at run
      cases run
      refine ⟨rfl, iff_of_true ?_ ?_⟩
      · intro limit member
        cases member
      · intro isSome
        cases isSome
  | some limit =>
      rw [isIngress] at run
      obtain ⟨⟨hasIfb, _⟩, _, addsIfb, rest⟩ := succeeds_bind.mp run
      obtain ⟨isThere, rfl⟩ := reconcileIfb_leaves addsIfb
      subst isThere
      obtain ⟨_, _, addsHook, rest⟩ := succeeds_bind.mp rest
      obtain ⟨hook, rfl, filters⟩ := reconcileHook_leaves rfl addsHook
      obtain ⟨⟨rebuilds, _⟩, _, runsShape, rest⟩ := succeeds_bind.mp rest
      obtain ⟨ifb, device, isIfb, shape, rfl⟩ := onIfb_leaves runsShape
      cases isIfb
      have ifbWellFormed : Tc.WellFormed before.ifbOrFresh.device.tree := by
        rw [Interface.ifbOrFresh]
        cases isIfb : before.ifb with
        | none => exact wellFormed_none
        | some ifb => exact wellFormed ifb isIfb
      obtain ⟨isKept, _, leaves, isDevice⟩ := reconcileHtbShape_leaves ifbWellFormed shape
      cases isKept
      cases rest
      have sameIndex : device.ifindex = before.ifbOrFresh.device.ifindex := by
        rw [isDevice]
        rfl
      have shapes := @shapes_iff others limit _ _ _ ifbWellFormed _ _ shape
      have isFilters : Interface.hookFilters
          ⟨before.device, some hook, some ⟨device, true⟩, before.nextIfindex⟩ =
          before.filtersOrRedirect before.ifbOrFresh.device.ifindex :=
        filters
      refine ⟨rfl, ?_⟩
      constructor
      · intro entering _
        obtain ⟨_, isIfb, _, sent, shaped⟩ := entering limit rfl
        cases isIfb
        obtain ⟨tree, isTree, funnels⟩ := shapes.mp shaped
        have redirects := (sentTo_iff_redirects isFilters).mp
          (fun packet => sameIndex ▸ sent packet)
        rw [Interface.ifbOrFresh] at isTree redirects
        cases isBefore : before.ifb with
        | none =>
            rw [isBefore] at isTree
            cases isTree
        | some ifb =>
            rw [isBefore] at isTree redirects
            exact ⟨ifb, rfl, ⟨tree, isTree, funnels⟩, redirects⟩
      · intro wanted other isLimit
        cases isLimit
        obtain ⟨ifb, isBefore, funnels, redirects⟩ := wanted rfl
        have isIfb : before.ifbOrFresh = ifb := by
          rw [Interface.ifbOrFresh, Option.mem_def.mp isBefore, Option.getD_some]
        rw [isIfb] at sameIndex shapes isFilters
        refine ⟨_, rfl, rfl, ?_, shapes.mpr funnels⟩
        intro packet
        have sent := (sentTo_iff_redirects isFilters).mpr redirects packet
        rw [sameIndex]
        exact sent

/-- `reconcile` shapes all packets of an interface that sends them to `1:10`
already. -/
theorem reconcile_shapesAll_iff (wellFormed : before.WellFormed) {report : ReconcileReport}
    (run : Succeeds (limiter.reconcile u32) before report after) :
    limiter.ShapesAll others hookOthers u32 after ↔
      limiter.Reconcilable others hookOthers u32 before := by
  rw [RateLimiter.reconcile, RateLimiter.reconcileWithOptions] at run
  cases isEgress : limiter.egress with
  | none =>
      simp only [isEgress] at run
      obtain ⟨_, entering⟩ := @reconcileIngress_iff others hookOthers u32
        before after limiter wellFormed.ifb _ _ run
      constructor
      · intro shapes
        refine ⟨fun isSome => ?_, entering.mp shapes.entering⟩
        rw [isEgress] at isSome
        cases isSome
      · intro wanted
        refine ⟨fun limit member => ?_, entering.mpr wanted.ingress⟩
        rw [isEgress] at member
        cases member
  | some limit =>
      simp only [isEgress] at run
      obtain ⟨⟨rebuilds, _⟩, _, runsShape, rest⟩ := succeeds_bind.mp run
      obtain ⟨device, shape, rfl⟩ := onDevice_leaves runsShape
      have isKept := (reconcileHtbShape_leaves wellFormed.device shape).1
      cases isKept
      have runsIngress : Succeeds (limiter.reconcileIngress u32 {} _)
          { before with device } report after :=
        rest
      obtain ⟨sameDevice, entering⟩ := @reconcileIngress_iff others hookOthers
        u32 { before with device } after limiter wellFormed.ifb _ _
        runsIngress
      have leaving := @shapes_iff others limit _ _ _ wellFormed.device _ _ shape
      constructor
      · intro shapes
        refine ⟨fun _ => ?_, entering.mp shapes.entering⟩
        have shaped := shapes.leaving limit isEgress
        rw [sameDevice] at shaped
        exact leaving.mp shaped
      · intro wanted
        refine ⟨fun other member => ?_, entering.mpr wanted.ingress⟩
        rw [isEgress] at member
        cases member
        rw [sameDevice]
        exact leaving.mpr (wanted.egress (by rw [isEgress]; rfl))

end

/-!
## Limiting what leaves
-/

/-- A limit of a megabyte a second for what leaves. -/
def leavingLimiter : RateLimiter where
  egress := some { rate := ⟨1000000⟩ }

/-- An interface without qdiscs. -/
def bareInterface : Interface where
  device := { ifindex := 2, tree := none }
  hook := none
  ifb := none
  nextIfindex := 3

theorem bareInterface_wellFormed : bareInterface.WellFormed where
  device := wellFormed_none
  ifb := fun _ member => nomatch member

/-- The interface with the tree of `apply`. -/
def leavingInterface : Interface :=
  { bareInterface with
    device := withTree bareInterface.device
      { bareTree 0x10 with
        classes :=
          [addedClass (majorOnly 1) (TcHandle.new 1 1) { rate := ⟨1000000⟩ },
            addedClass (TcHandle.new 1 1) (TcHandle.new 1 10) { rate := ⟨1000000⟩ }]
        leaves :=
          [{ parent := TcHandle.new 1 10, handle := majorOnly 10
             options := .fqCodel 5000 }] } }

theorem apply_leavingLimiter (u32 : RedirectRequest → Option (Packet → Bool)) :
    Succeeds (leavingLimiter.apply u32) bareInterface () leavingInterface :=
  rfl

/-- On an interface without qdiscs both leave the same tree. -/
theorem reconcile_leavingLimiter (u32 : RedirectRequest → Option (Packet → Bool)) :
    Succeeds (leavingLimiter.reconcile u32) bareInterface { changesMade := 4, rootModified := true }
      leavingInterface :=
  rfl

end Nlink.Ratelimit
