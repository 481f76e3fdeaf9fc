import Mathlib.Data.List.Range
import Nlink.TcTree

namespace Nlink.Tc

open Foundation List
open TcHandle

/-!
# Recipes for trees of queueing disciplines

A recipe is compared with what a device dumps, and what differs is sent.

## The live tree
-/

structure LiveTree where
  rootQdisc : Option Qdisc
  classes : BTreeMap TcHandle TcClass
  leafQdiscs : BTreeMap TcHandle Qdisc
  rootFilters : List TcFilter

namespace Device

/-- `get_qdiscs_by_index`. -/
def qdiscs (device : Device) : List Qdisc :=
  match device.tree with
  | none => []
  | some tree => { parent := ROOT, handle := tree.handle, options := tree.options } :: tree.leaves

/-- `get_classes_by_index`. -/
def classes (device : Device) : List TcClass :=
  match device.tree with
  | none => []
  | some tree => tree.classes

/-- `get_filters_by_index`. -/
def filters (device : Device) : List TcFilter :=
  match device.tree with
  | none => []
  | some tree => tree.filters

/-- The dumps, collected; of several root qdiscs the last one stays. -/
def liveTree (device : Device) : LiveTree where
  rootQdisc := (device.qdiscs.filter (·.parent = ROOT)).getLast?
  classes := Std.TreeMap.ofList (device.classes.map fun tcClass => (tcClass.handle, tcClass))
  leafQdiscs :=
    Std.TreeMap.ofList
      ((device.qdiscs.filter (·.parent ≠ ROOT)).map fun qdisc => (qdisc.parent, qdisc))
  rootFilters := device.filters.filter (·.parent = majorOnly 1)

end Device

def dumpLiveTree : Conn LiveTree := do
  return (← get).liveTree

namespace LiveTree

/-- `class`. -/
def tcClass (tree : LiveTree) (handle : TcHandle) : Option TcClass :=
  tree.classes[handle]?

def leafFor (tree : LiveTree) (classHandle : TcHandle) : Option Qdisc :=
  tree.leafQdiscs[classHandle]?

def filterAtPriority (tree : LiveTree) (priority : BitVec 16) : Option TcFilter :=
  tree.rootFilters.find? (·.priority = priority)

end LiveTree

/-!
## Comparisons
-/

/-- `root_htb_options`, the default class of them. -/
def rootHtbDefault (tree : LiveTree) : Option (BitVec 32) :=
  tree.rootQdisc.bind fun root =>
    match root.options with
    | .htb defaultClass => some defaultClass
    | _ => none

def htbClassOptions (live : TcClass) : Option HtbClassOptions :=
  match live.options with
  | .htb attrs => some (parseHtbClassOptions attrs)
  | .other _ => none

def htbClassRatesMatch (live : TcClass) (desiredRateBps desiredCeilBps : BitVec 64) : Bool :=
  (htbClassOptions live).any fun opts => opts.rate = desiredRateBps && opts.ceil = desiredCeilBps

/-- Any live target will do when none is desired. -/
def fqCodelTargetMatches (desiredTargetUs : Option (BitVec 32)) (live : Qdisc) : Bool :=
  match live.options with
  | .fqCodel targetUs => desiredTargetUs.all (targetUs = ·)
  | _ => false

/-- `delay` and `jitter` of a live netem: nothing when zero. -/
def readDuration (nanos : BitVec 64) : Option Duration :=
  if nanos = 0 then none else some ⟨nanos.toNat⟩

section

-- A probability that is read as a percentage and converted back, in `f64`.
variable (echo : BitVec 32 → BitVec 32)

/-- A probability of zero is no percentage. -/
def readProbability (raw : BitVec 32) : BitVec 32 :=
  if raw = 0 then 0 else echo raw

/-- `netem_matches`, of the options; correlations are not looked at. -/
def netemOptionsMatch (desired : NetemConfig) (live : NetemOptions) : Bool :=
  desired.delay = readDuration live.delayNs &&
  desired.jitter = readDuration live.jitterNs &&
  desired.loss.kernelProbability = readProbability echo live.lossRaw &&
  desired.duplicate.kernelProbability = readProbability echo live.duplicateRaw &&
  desired.corrupt.kernelProbability = readProbability echo live.corruptRaw &&
  desired.reorder.kernelProbability = readProbability echo live.reorderRaw &&
  desired.effectiveGap = live.gap &&
  ((desired.rate.map (·.bytesPerSec)).getD 0) = live.rate &&
  desired.limit = live.limit

end

/-!
## Reports
-/

structure ReconcileOptions where
  fallbackToApply : Bool := false
  dryRun : Bool := false

structure StaleObject where
  kind : String
  handle : TcHandle
  priority : Option (BitVec 16)

structure UnmanagedObject where
  kind : String
  handle : TcHandle
  priority : Option (BitVec 16)

structure ReconcileReport where
  changesMade : Nat := 0
  rulesAdded : Nat := 0
  rulesModified : Nat := 0
  rulesRemoved : Nat := 0
  rootModified : Bool := false
  defaultModified : Bool := false
  staleRemoved : List StaleObject := []
  unmanaged : List UnmanagedObject := []
  dryRun : Bool := false

def ReconcileReport.isNoop (report : ReconcileReport) : Bool :=
  report.changesMade = 0

/-!
## One object
-/

/-- What is done about a class. -/
inductive ClassChange where
  | kept
  | added
  | updated
  deriving DecidableEq

def ClassChange.isChange : ClassChange → Bool
  | .kept => false
  | .added => true
  | .updated => true

/-- What is left when the root qdisc has been looked after. -/
inductive RootStep where
  | below (changed : Bool)
  | rebuild

section

-- The name of the recipe, which is in the context of its errors.
variable (opts : ReconcileOptions) (who : String)

/-- A request that a dry run does not send. -/
def unlessDry (context : String) (request : Conn Unit) : Conn Unit :=
  onlyIf (!opts.dryRun) (mapErr (Error.withContext (who ++ "::reconcile: " ++ context)) request)

/-- The root HTB: added when there is no root qdisc, changed when it is at
`1:` with another default class. -/
def reconcileRoot (tree : LiveTree) (onWhat : String) (defaultMinor : BitVec 16) : Conn RootStep :=
  let config : QdiscConfig := .htb { defaultClass := defaultMinor.setWidth 32 }
  match tree.rootQdisc with
  | none => do
      unlessDry opts who "add HTB root" (addQdiscFull ROOT (majorOnly 1) config)
      return .below true
  | some root =>
      if root.options.kind = "htb" ∧ root.handle = majorOnly 1 then
        if rootHtbDefault tree = some (defaultMinor.setWidth 32) then
          pure (.below false)
        else do
          unlessDry opts who "update HTB root" (changeQdiscFull ROOT (majorOnly 1) config)
          return .below true
      else if opts.fallbackToApply then
        pure .rebuild
      else
        throw (.invalidMessage (who ++ "::reconcile: root qdisc on " ++ onWhat ++ " is Some(\"" ++
            root.options.kind ++ "\") (handle " ++ root.handle.format ++
            "), not HTB at 1:; pass " ++
            "ReconcileOptions::with_fallback_to_apply(true) to rebuild"))

/-- A class that is missing is added, and one with other rates is changed. -/
def reconcileClass (tree : LiveTree) (parent classid : TcHandle) (rate ceil : Rate)
    (added updated : String) : Conn ClassChange :=
  match tree.tcClass classid with
  | none => do
      unlessDry opts who added (addClass parent classid { rate, ceil := some ceil })
      return .added
  | some live =>
      if htbClassRatesMatch live rate.bytesPerSec ceil.bytesPerSec then
        pure .kept
      else do
        unlessDry opts who updated (changeClassFull classid { rate, ceil := some ceil })
        return .updated

/-- A leaf that is missing is added, and one that does not match is replaced.
Returns whether something is done. -/
def reconcileLeaf (tree : LiveTree) (classid leafHandle : TcHandle) (config : QdiscConfig)
    (isWanted : Qdisc → Bool) (added updated : String) : Conn Bool :=
  match tree.leafFor classid with
  | none => do
      unlessDry opts who added (addQdiscFull classid leafHandle config)
      return true
  | some live =>
      if isWanted live then
        pure false
      else do
        unlessDry opts who updated (replaceQdiscFull classid leafHandle config)
        return true

/-- A filter that is missing, or is not for the class, is added.  Returns
whether it is. -/
def reconcileFilter (tree : LiveTree) (classid : TcHandle)
    (wanted : BitVec 16 × BitVec 16 × FlowerFilter) (wrap : Error → Error) :
    Conn Bool :=
  let (proto, prio, filter) := wanted
  let live := tree.filterAtPriority prio
  if live.any fun found =>
      found.options.kind = "flower" && flowerClassid found = some classid then
    pure false
  else do
    onlyIf (!opts.dryRun) (do
      forSome live fun stale => ignoringError (delFilter (majorOnly 1) stale.protocol prio)
      mapErr wrap (addFilterFull (majorOnly 1) proto prio filter))
    return true

/-- The class of no rule: its minor is neither that of the parent class nor in
`2..=maxMinor`. -/
def staleClass (maxMinor : BitVec 16) (handle : TcHandle) : Bool :=
  handle.major = 1 && handle.minor ≠ 0 && handle.minor ≠ 1 &&
    !(2 ≤ handle.minor && handle.minor ≤ maxMinor)

/-- Classes of no rule, with their leaves, are removed. -/
def removeStaleClass (tree : LiveTree) (report : ReconcileReport) (handle : TcHandle) :
    Conn ReconcileReport := do
  forSome (tree.leafFor handle) fun leaf =>
    onlyIf (!opts.dryRun) (ignoringError (delQdiscFull handle (some leaf.handle)))
  onlyIf (!opts.dryRun)
    (tryCatch (delClass handle) fun error =>
      if error.isNotFound then
        pure ()
      else
        throw (error.withContext (who ++ "::reconcile: remove stale class " ++ handle.format)))
  return { report with
    changesMade := report.changesMade + 1
    rulesRemoved := report.rulesRemoved + 1
    staleRemoved := report.staleRemoved ++ [{ kind := "class", handle, priority := none }] }

def removeStaleFilter (report : ReconcileReport) (filter : TcFilter) : Conn ReconcileReport := do
  onlyIf (!opts.dryRun) (ignoringError (delFilter (majorOnly 1) filter.protocol filter.priority))
  return { report with
    changesMade := report.changesMade + 1
    staleRemoved := report.staleRemoved ++
      [{ kind := "filter", handle := filter.parent
         priority := some filter.priority }] }

/-- Filters of no rule in the priorities of the recipe are removed, those at
other priorities are reported. -/
def removeStale (tree : LiveTree) (maxMinor : BitVec 16)
    (isManaged isMapped : BitVec 16 → Bool) (report : ReconcileReport) :
    Conn ReconcileReport := do
  let report ←
    (tree.classes.keys.filter (staleClass maxMinor)).foldlM (removeStaleClass opts who tree) report
  let (managed, outside) := tree.rootFilters.partition (isManaged ·.priority)
  let report := { report with
    unmanaged := report.unmanaged ++ outside.map fun filter =>
      { kind := "filter", handle := filter.parent
        priority := some filter.priority } }
  (managed.filter (!isMapped ·.priority)).foldlM (removeStaleFilter opts) report

end

/-!
## Numbers of handles
-/

variable {first second : Nat}

theorem ofNat_inj (firstSmall : first < 2 ^ 16) (secondSmall : second < 2 ^ 16)
    (same : BitVec.ofNat 16 first = BitVec.ofNat 16 second) : first = second := by
  have values := congrArg BitVec.toNat same
  rwa [BitVec.toNat_ofNat, BitVec.toNat_ofNat, Nat.mod_eq_of_lt firstSmall,
    Nat.mod_eq_of_lt secondSmall] at values

theorem new_inj {major first second : BitVec 16}
    (same : TcHandle.new major first = TcHandle.new major second) : first = second := by
  have minors := congrArg minor same
  rwa [minor_new, minor_new] at minors

theorem majorOnly_inj {first second : BitVec 16} (same : majorOnly first = majorOnly second) :
    first = second := by
  have majors := congrArg major same
  rwa [majorOnly, majorOnly, major_new, major_new] at majors

theorem new_one_ne_root (minor : BitVec 16) : TcHandle.new 1 minor ≠ ROOT := by
  intro same
  have majors := congrArg major same
  rw [major_new] at majors
  exact absurd majors (by decide)

def placeClass (place : Nat) : TcHandle :=
  TcHandle.new 1 (BitVec.ofNat 16 (place + 2))

def placeLeaf (place : Nat) : TcHandle :=
  majorOnly (BitVec.ofNat 16 (place + 10))

-- A thousand places are more than any recipe of these rules has, and numbers
-- of 16 bits can hold them.
theorem placeClass_eq_iff (firstSmall : first ≤ 1000) (secondSmall : second ≤ 1000) :
    placeClass first = placeClass second ↔ first = second := by
  refine ⟨fun same => ?_, fun same => congrArg placeClass same⟩
  have numbers := ofNat_inj (by omega) (by omega) (new_inj same)
  omega

theorem placeLeaf_eq_iff (firstSmall : first ≤ 1000) (secondSmall : second ≤ 1000) :
    placeLeaf first = placeLeaf second ↔ first = second := by
  refine ⟨fun same => ?_, fun same => congrArg placeLeaf same⟩
  have numbers := ofNat_inj (by omega) (by omega) (majorOnly_inj same)
  omega

theorem placeClass_ne_parent {place : Nat} (small : place ≤ 1000) :
    TcHandle.new 1 1 ≠ placeClass place := by
  intro same
  have numbers : 1 = place + 2 := ofNat_inj (by decide) (by omega) (new_inj same)
  omega

theorem placeLeaf_ne_root {place : Nat} (small : place ≤ 1000) : majorOnly 1 ≠ placeLeaf place := by
  intro same
  have numbers : 1 = place + 10 := ofNat_inj (by decide) (by omega) (majorOnly_inj same)
  omega

/-!
## Slots
-/

structure Slot where
  place : Nat
  attrs : HtbClassAttrs
  leaf : Option QdiscOptions
  filters : List TcFilter

namespace Slot

def tcClass (slot : Slot) : TcClass where
  handle := placeClass slot.place
  parent := TcHandle.new 1 1
  options := .htb slot.attrs

def qdisc (slot : Slot) : Option Qdisc :=
  slot.leaf.map fun options =>
    { parent := placeClass slot.place, handle := placeLeaf slot.place, options }

end Slot

/-- The class under which those of the slots are. -/
def parentClass (attrs : HtbClassAttrs) : TcClass where
  handle := TcHandle.new 1 1
  parent := majorOnly 1
  options := .htb attrs

/-- The tree of some slots, with the default class of the root and the
attributes of the class under it. -/
def slotTree (defaultMinor : BitVec 32) (parent : HtbClassAttrs) (slots : List Slot) : TcTree where
  handle := majorOnly 1
  options := .htb defaultMinor
  classes := parentClass parent :: slots.map Slot.tcClass
  leaves := slots.filterMap Slot.qdisc
  filters := slots.flatMap Slot.filters

/-- Slots stand at the places that they are for. -/
structure InPlace (slots : List Slot) : Prop where
  places : slots.map Slot.place = List.range slots.length
  few : slots.length ≤ 1000

namespace InPlace

variable {slots : List Slot} {slot : Slot}

section

variable (inPlace : InPlace slots)

include inPlace

theorem lt_of_mem (member : slot ∈ slots) : slot.place < slots.length := by
  have isPlace := mem_map_of_mem (f := Slot.place) member
  rwa [inPlace.places, mem_range] at isPlace

theorem small_of_mem (member : slot ∈ slots) : slot.place ≤ 1000 :=
  Nat.le_of_lt (Nat.lt_of_lt_of_le (inPlace.lt_of_mem member) inPlace.few)

theorem nodup : (slots.map Slot.place).Nodup := by
  rw [inPlace.places]
  exact nodup_range

theorem place_eq {place : Nat} (found : slots[place]? = some slot) : slot.place = place := by
  have mapped : (slots.map Slot.place)[place]? = some slot.place := by
    rw [getElem?_map, found, Option.map_some]
  rw [inPlace.places, List.getElem?_eq_some_iff] at mapped
  obtain ⟨inside, isPlace⟩ := mapped
  rw [getElem_range] at isPlace
  exact isPlace.symm

theorem mem_and_place_iff {place : Nat} :
    slot ∈ slots ∧ slot.place = place ↔ slots[place]? = some slot := by
  constructor
  · rintro ⟨member, rfl⟩
    obtain ⟨index, found⟩ := mem_iff_getElem?.mp member
    rwa [inPlace.place_eq found]
  · intro found
    exact ⟨mem_of_getElem? found, inPlace.place_eq found⟩

theorem snoc (next : slot.place = slots.length) (few : slots.length < 1000) :
    InPlace (slots ++ [slot]) where
  places := by
    rw [map_append, inPlace.places, map_singleton, next,
      length_append, length_singleton, List.range_succ]
  few := by
    rw [length_append, length_singleton]
    exact few

end

theorem place_ne {before after : List Slot} {other : Slot}
    (inPlace : InPlace (before ++ slot :: after)) (member : other ∈ before ∨ other ∈ after) :
    other.place ≠ slot.place := by
  have distinct := inPlace.nodup
  rw [map_append, map_cons, nodup_append] at distinct
  obtain ⟨_, rest, apart⟩ := distinct
  rcases member with isBefore | isAfter
  · exact apart _ (mem_map_of_mem isBefore) _ mem_cons_self
  · intro same
    rw [nodup_cons] at rest
    exact rest.1 (same ▸ mem_map_of_mem isAfter)

theorem of_zipIdx {α : Type} {items : List α} {done rest : List (α × Nat)}
    (whole : items.zipIdx = done ++ rest) (few : items.length ≤ 1000) {slotOf : α × Nat → Slot}
    (places : ∀ item, (slotOf item).place = item.2) :
    InPlace (done.map slotOf) where
  places := by
    have samePlaces : done.map (Slot.place ∘ slotOf) = done.map Prod.snd :=
      map_congr_left fun item _ => places item
    have numbers := congrArg (List.map Prod.snd) whole
    rw [zipIdx_map_snd, map_append, ← range_eq_range'] at numbers
    rw [map_map, samePlaces, length_map]
    have isTake : done.map Prod.snd =
        (List.range items.length).take (done.map Prod.snd).length := by
      rw [numbers, take_left]
    have inside : done.length ≤ items.length := by
      have lengths := congrArg List.length whole
      rw [length_zipIdx, length_append] at lengths
      omega
    rw [isTake, length_map, take_range, Nat.min_eq_left inside]
  few := by
    have lengths := congrArg List.length whole
    rw [length_zipIdx, length_append] at lengths
    rw [length_map]
    omega

end InPlace

theorem place_of_zipIdx {α : Type} {items : List α} {done rest : List (α × Nat)} {item : α × Nat}
    (whole : items.zipIdx = done ++ item :: rest) :
    item.2 = done.length ∧ item.2 < items.length := by
  have found : items.zipIdx[done.length]? = some item := by
    rw [whole, getElem?_append_right (Nat.le_refl _), Nat.sub_self]
    rfl
  rw [getElem?_zipIdx, Option.map_eq_some_iff] at found
  obtain ⟨value, isValue, rfl⟩ := found
  have inside := (List.getElem?_eq_some_iff.mp isValue).1
  exact ⟨Nat.zero_add _, by simpa using inside⟩

theorem eq_of_place {α : Type} {items : List α} {first second : α × Nat}
    (isFirst : first ∈ items.zipIdx) (isSecond : second ∈ items.zipIdx)
    (same : first.2 = second.2) : first = second := by
  obtain ⟨value, place⟩ := first
  obtain ⟨other, otherPlace⟩ := second
  cases same
  rw [mem_zipIdx_iff_getElem?] at isFirst isSecond
  cases isFirst.symm.trans isSecond
  rfl

/-!
## What the tree has
-/

section

variable {defaultMinor : BitVec 32} {parent : HtbClassAttrs}
variable {slots : List Slot} {place : Nat}

theorem hasClass_slotTree (inPlace : InPlace slots) (small : place ≤ 1000) :
    (slotTree defaultMinor parent slots).hasClass (placeClass place) = true ↔
      ∃ slot, slots[place]? = some slot := by
  rw [TcTree.hasClass, any_eq_true]
  constructor
  · rintro ⟨tcClass, member, isPlace⟩
    have same := of_decide_eq_true isPlace
    rcases mem_cons.mp member with rfl | member
    · exact absurd same (placeClass_ne_parent small)
    · obtain ⟨slot, isSlot, rfl⟩ := mem_map.mp member
      have places := (placeClass_eq_iff (inPlace.small_of_mem isSlot) small).mp same
      exact ⟨slot, inPlace.mem_and_place_iff.mp ⟨isSlot, places⟩⟩
  · rintro ⟨slot, found⟩
    obtain ⟨isSlot, rfl⟩ := inPlace.mem_and_place_iff.mpr found
    exact ⟨slot.tcClass, mem_cons_of_mem _ (mem_map_of_mem isSlot), decide_eq_true rfl⟩

theorem isParent_slotTree : (slotTree defaultMinor parent slots).isParent (TcHandle.new 1 1) =
      true := by
  rw [TcTree.isParent, TcTree.hasClass]
  simp [slotTree, parentClass]

theorem mem_leaves_slotTree {qdisc : Qdisc} : qdisc ∈ (slotTree defaultMinor parent slots).leaves ↔
      ∃ slot ∈ slots, slot.qdisc = some qdisc := by
  change qdisc ∈ slots.filterMap Slot.qdisc ↔ _
  rw [mem_filterMap]

theorem qdisc_eq_some {slot : Slot} {qdisc : Qdisc} (isLeaf : slot.qdisc = some qdisc) :
    ∃ options, slot.leaf = some options ∧ qdisc =
        { parent := placeClass slot.place, handle := placeLeaf slot.place, options } := by
  rw [Slot.qdisc, Option.map_eq_some_iff] at isLeaf
  obtain ⟨options, isOptions, rfl⟩ := isLeaf
  exact ⟨options, isOptions, rfl⟩

theorem hasLeaf_slotTree_eq_false (inPlace : InPlace slots) (small : place ≤ 1000)
    (bare : ∀ slot ∈ slots, slot.place = place → slot.leaf = none) :
    (slotTree defaultMinor parent slots).hasLeaf (placeClass place) =
      false := by
  rw [TcTree.hasLeaf, any_eq_false]
  intro qdisc member isPlace
  obtain ⟨slot, isSlot, isLeaf⟩ := mem_leaves_slotTree.mp member
  obtain ⟨options, isOptions, rfl⟩ := qdisc_eq_some isLeaf
  have places := (placeClass_eq_iff (inPlace.small_of_mem isSlot) small).mp
    (of_decide_eq_true isPlace)
  rw [bare slot isSlot places] at isOptions
  cases isOptions

theorem usesHandle_slotTree_eq_false (inPlace : InPlace slots) (small : place ≤ 1000)
    (bare : ∀ slot ∈ slots, slot.place = place → slot.leaf = none) :
    (slotTree defaultMinor parent slots).usesHandle (placeLeaf place) =
      false := by
  rw [TcTree.usesHandle, Bool.or_eq_false_iff]
  refine ⟨decide_eq_false (placeLeaf_ne_root small), ?_⟩
  rw [any_eq_false]
  intro qdisc member isPlace
  obtain ⟨slot, isSlot, isLeaf⟩ := mem_leaves_slotTree.mp member
  obtain ⟨options, isOptions, rfl⟩ := qdisc_eq_some isLeaf
  have places := (placeLeaf_eq_iff (inPlace.small_of_mem isSlot) small).mp
    (of_decide_eq_true isPlace)
  rw [bare slot isSlot places] at isOptions
  cases isOptions

end

/-!
## Sending
-/

section

variable {ifindex : BitVec 32} {α : Type}

variable {wrap : Error → Error} {before after : Device}

theorem succeeds_mapErr {program : Conn α} {value : α}
    (ends : Succeeds program before value after) :
    Succeeds (mapErr wrap program) before value after :=
  succeeds_tryCatch.mpr (.inl ends)

theorem succeeds_of_mapErr {program : Conn α} {value : α}
    (ends : Succeeds (mapErr wrap program) before value after) :
    Succeeds program before value after := by
  rcases succeeds_tryCatch.mp ends with succeeds | ⟨_, _, _, impossible⟩
  · exact succeeds
  · exact absurd impossible not_succeeds_throw

theorem succeeds_ignoringError {program : Conn Unit} (ends : Succeeds program before () after) :
    Succeeds (ignoringError program) before () after :=
  succeeds_tryCatch.mpr (.inl ends)

theorem succeeds_sendAck {act : Option TcTree → Except Nat (Option TcTree)}
    {before after : Option TcTree} (acts : act before = .ok after) :
    Succeeds (sendAck act) ⟨ifindex, before⟩ () ⟨ifindex, after⟩ := by
  rw [Succeeds, sendAck, acts]

theorem succeeds_sendQdisc {config : QdiscConfig}
    {act : QdiscAttrs → Option TcTree → Except Nat (Option TcTree)} {attrs : QdiscAttrs}
    {before after : Option TcTree} (writes : config.writeOptions = .ok attrs)
    (acts : act attrs before = .ok after) :
    Succeeds (sendQdisc config wrap act) ⟨ifindex, before⟩ () ⟨ifindex, after⟩ := by
  rw [sendQdisc, writes]
  exact succeeds_mapErr (succeeds_sendAck acts)

end

/-!
## The root qdisc and the class under it
-/

section

variable {ifindex defaultMinor : BitVec 32} {parent : HtbClassAttrs}
variable {slots : List Slot}

/-- Deleting the root clears the tree, or finds none. -/
theorem succeeds_delRoot (tree : Option TcTree) :
    Succeeds (ignoringError (delQdiscFull ROOT none)) ⟨ifindex, tree⟩ () ⟨ifindex, none⟩ := by
  cases tree with
  | none => rfl
  | some tree => rfl

/-- The tree of a root qdisc that has just been added. -/
def bareTree (defaultMinor : BitVec 32) : TcTree where
  handle := majorOnly 1
  options := .htb defaultMinor
  classes := []
  leaves := []
  filters := []

/-- Adding the root to a device without one starts its tree. -/
theorem succeeds_addRoot : Succeeds
      (addQdiscFull ROOT (majorOnly 1) (.htb { defaultClass := defaultMinor }))
      ⟨ifindex, none⟩ () ⟨ifindex, some (bareTree defaultMinor)⟩ :=
  succeeds_sendQdisc rfl rfl

theorem succeeds_addParentClass (config : HtbClassConfig) :
    Succeeds (addClass (majorOnly 1) (TcHandle.new 1 1) config)
      ⟨ifindex, some (bareTree defaultMinor)⟩ ()
      ⟨ifindex, some (slotTree defaultMinor config.writeOptions [])⟩ :=
  succeeds_mapErr (succeeds_sendAck rfl)

theorem succeeds_changeRoot (newMinor : BitVec 32) : Succeeds
      (changeQdiscFull ROOT (majorOnly 1) (.htb { defaultClass := newMinor }))
      ⟨ifindex, some (slotTree defaultMinor parent slots)⟩ ()
      ⟨ifindex, some (slotTree newMinor parent slots)⟩ := by
  refine Succeeds.bind (rfl : Succeeds get _ _ _) ?_
  exact succeeds_sendQdisc rfl rfl

end

end Nlink.Tc
