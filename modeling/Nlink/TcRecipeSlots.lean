import Nlink.TcRecipe

namespace Nlink.Tc

open Foundation List
open TcHandle

/-!
# Requests on one slot

A class is added in a new slot at the end.  The class and the leaf of any slot
can be changed in place; leaves and filters are added to the last slot.
-/

variable {ifindex defaultMinor : BitVec 32} {parent : HtbClassAttrs}
variable {slots before after : List Slot} {slot : Slot}

theorem middle_mem : slot ∈ before ++ slot :: after :=
  mem_append_right before mem_cons_self

theorem mem_middle {other : Slot} (member : other ∈ before ++ slot :: after) :
    other = slot ∨ other ∈ before ∨ other ∈ after := by
  rcases mem_append.mp member with isBefore | rest
  · exact .inr (.inl isBefore)
  · rcases mem_cons.mp rest with same | isAfter
    · exact .inl same
    · exact .inr (.inr isAfter)

/-!
## Classes
-/

/-- A slot with a class only. -/
def bareSlot (place : Nat) (config : HtbClassConfig) : Slot where
  place := place
  attrs := config.writeOptions
  leaf := none
  filters := []

theorem slotTree_bareSlot (place : Nat) (config : HtbClassConfig) :
    slotTree defaultMinor parent (slots ++ [bareSlot place config]) =
      { slotTree defaultMinor parent slots with
        classes := (slotTree defaultMinor parent slots).classes ++
          [{ handle := placeClass place, parent := TcHandle.new 1 1
             options := .htb config.writeOptions }] } := by
  simp [slotTree, bareSlot, Slot.qdisc, Slot.tcClass]

variable {place : Nat}

theorem succeeds_addSlotClassAt (inPlace : InPlace slots) (isNext : place = slots.length)
    (few : place < 1000) (config : HtbClassConfig) :
    Succeeds (addClass (TcHandle.new 1 1) (placeClass place) config)
      ⟨ifindex, some (slotTree defaultMinor parent slots)⟩ ()
      ⟨ifindex, some (slotTree defaultMinor parent (slots ++ [bareSlot place config]))⟩ := by
  rw [slotTree_bareSlot]
  have fresh : (slotTree defaultMinor parent slots).hasClass (placeClass place) = false := by
    rw [Bool.eq_false_iff, ne_eq, hasClass_slotTree inPlace (Nat.le_of_lt few)]
    rintro ⟨slot, found⟩
    rw [getElem?_eq_none (Nat.le_of_eq isNext.symm)] at found
    cases found
  refine succeeds_mapErr (succeeds_sendAck ?_)
  rw [createClass, isParent_slotTree, fresh]
  rfl

/-!
## Leaves
-/

theorem leaves_middle (before after : List Slot) (slot : Slot) :
    (slotTree defaultMinor parent (before ++ slot :: after)).leaves =
      before.filterMap Slot.qdisc ++ slot.qdisc.toList ++ after.filterMap Slot.qdisc := by
  change (before ++ slot :: after).filterMap Slot.qdisc = _
  rw [filterMap_append, List.append_assoc]
  congr 1
  cases isQdisc : slot.qdisc with
  | none => rw [filterMap_cons_none isQdisc]; rfl
  | some qdisc => rw [filterMap_cons_some isQdisc]; rfl

def Slot.withLeaf (slot : Slot) (leaf : Option QdiscOptions) : Slot :=
  { slot with leaf }

theorem slotTree_withLeaf (leaf : Option QdiscOptions) :
    slotTree defaultMinor parent (before ++ slot.withLeaf leaf :: after) =
      { slotTree defaultMinor parent (before ++ slot :: after) with
        leaves := before.filterMap Slot.qdisc ++ (slot.withLeaf leaf).qdisc.toList ++
            after.filterMap Slot.qdisc } := by
  have leaves : (slotTree defaultMinor parent (before ++ slot.withLeaf leaf :: after)).leaves = _ :=
    leaves_middle before after (slot.withLeaf leaf)
  rw [← leaves]
  simp [slotTree, Slot.tcClass, Slot.withLeaf]

theorem succeeds_addSlotLeaf (inPlace : InPlace (slots ++ [slot])) (bare : slot.leaf = none)
    {config : QdiscConfig} {attrs : QdiscAttrs} (writes : config.writeOptions = .ok attrs) :
    Succeeds (addQdiscFull (placeClass slot.place) (placeLeaf slot.place) config)
      ⟨ifindex, some (slotTree defaultMinor parent (slots ++ [slot]))⟩ ()
      ⟨ifindex, some (slotTree defaultMinor parent (slots ++ [slot.withLeaf attrs.settled]))⟩ := by
  have isSlot : slot ∈ slots ++ [slot] := middle_mem
  have small : slot.place ≤ 1000 := inPlace.small_of_mem isSlot
  have bareAt : ∀ other ∈ slots ++ [slot], other.place = slot.place → other.leaf = none := by
    intro other member same
    rcases mem_middle member with rfl | elsewhere
    · exact bare
    · exact absurd same (inPlace.place_ne elsewhere)
  have isClass : (slotTree defaultMinor parent (slots ++ [slot])).hasClass
      (placeClass slot.place) = true :=
    (hasClass_slotTree inPlace small).mpr ⟨slot, inPlace.mem_and_place_iff.mp ⟨isSlot, rfl⟩⟩
  have noLeaf : (slotTree defaultMinor parent (slots ++ [slot])).hasLeaf
      (placeClass slot.place) = false :=
    hasLeaf_slotTree_eq_false inPlace small bareAt
  have unused : (slotTree defaultMinor parent (slots ++ [slot])).usesHandle
      (placeLeaf slot.place) = false :=
    usesHandle_slotTree_eq_false inPlace small bareAt
  have notRoot : placeClass slot.place ≠ ROOT := new_one_ne_root _
  refine succeeds_sendQdisc writes ?_
  rw [createQdisc, if_neg notRoot, isClass, noLeaf, unused, slotTree_withLeaf]
  have leaves : (slotTree defaultMinor parent (slots ++ [slot])).leaves = _ :=
    leaves_middle slots [] slot
  have noQdisc : slot.qdisc = none := by rw [Slot.qdisc, bare, Option.map_none]
  rw [noQdisc] at leaves
  simp [leaves, Slot.qdisc, Slot.withLeaf]

/-!
## Filters
-/

def rootFilter (wanted : BitVec 16 × BitVec 16 × FlowerFilter) : TcFilter where
  parent := majorOnly 1
  protocol := wanted.1
  priority := wanted.2.1
  options := .flower wanted.2.2.writeOptions

/-- Two filters can be in one tree. -/
def Apart (first second : TcFilter) : Prop :=
  second.clashes first = false

theorem apart_of_priority {first second : TcFilter} (differ : first.priority ≠ second.priority) :
    Apart first second := by
  rw [Apart, TcFilter.clashes, decide_eq_false differ.symm, Bool.and_false, Bool.false_and]

def Slot.withFilters (slot : Slot) (filters : List TcFilter) : Slot :=
  { slot with filters }

theorem slotTree_withFilters (filters : List TcFilter) :
    slotTree defaultMinor parent (before ++ slot.withFilters filters :: after) =
      { slotTree defaultMinor parent (before ++ slot :: after) with
        filters := before.flatMap Slot.filters ++ filters ++ after.flatMap Slot.filters } := by
  have sameQdisc : (slot.withFilters filters).qdisc = slot.qdisc := rfl
  have sameClass : (slot.withFilters filters).tcClass = slot.tcClass := rfl
  simp only [slotTree, map_append, map_cons, filterMap_append, filterMap_cons,
    sameQdisc, sameClass, flatMap_append, flatMap_cons, List.append_assoc]
  rfl

theorem succeeds_addFilter {tree : TcTree} {wanted : BitVec 16 × BitVec 16 × FlowerFilter}
    (atRoot : tree.handle = majorOnly 1)
    (apart : ∀ filter ∈ tree.filters, Apart filter (rootFilter wanted)) :
    Succeeds (addFilterFull (majorOnly 1) wanted.1 wanted.2.1 wanted.2.2) ⟨ifindex, some tree⟩ ()
      ⟨ifindex, some { tree with
        filters := tree.filters ++ [rootFilter wanted] }⟩ := by
  refine succeeds_mapErr (succeeds_sendAck ?_)
  have under : tree.isParent (majorOnly 1) = true := by
    rw [TcTree.isParent, atRoot]
    simp
  have fits : tree.filters.any (rootFilter wanted).clashes = false := by
    rw [any_eq_false]
    intro filter member clashes
    rw [apart filter member] at clashes
    cases clashes
  change createFilter (rootFilter wanted) (some tree) = _
  rw [createFilter, fits]
  change (if tree.isParent (majorOnly 1) = false then _ else _) = _
  rw [under]
  rfl

theorem succeeds_addFilters {tree : TcTree}
    {program : BitVec 16 × BitVec 16 × FlowerFilter → Conn Unit}
    (adds : ∀ {wanted first last},
      Succeeds (addFilterFull (majorOnly 1) wanted.1 wanted.2.1 wanted.2.2) first () last →
      Succeeds (program wanted) first () last)
    {wanted : List (BitVec 16 × BitVec 16 × FlowerFilter)} (atRoot : tree.handle = majorOnly 1)
    (apart : (tree.filters ++ wanted.map rootFilter).Pairwise Apart) :
    Succeeds (wanted.forM program) ⟨ifindex, some tree⟩ ()
      ⟨ifindex, some { tree with
        filters := tree.filters ++ wanted.map rootFilter }⟩ := by
  induction wanted generalizing tree with
  | nil =>
      rw [map_nil, List.append_nil]
      rfl
  | cons first rest ih =>
      rw [map_cons] at apart ⊢
      have fits : ∀ filter ∈ tree.filters, Apart filter (rootFilter first) :=
        fun filter member => (pairwise_append.mp apart).2.2 filter member _ mem_cons_self
      have turn := @succeeds_addFilter ifindex tree first atRoot fits
      rw [append_cons] at apart ⊢
      exact (adds turn).bind
        (@ih { tree with filters := tree.filters ++ [rootFilter first] } atRoot apart)

theorem slotTree_lastFilters (filters : List TcFilter) :
    { slotTree defaultMinor parent (slots ++ [slot]) with
      filters := (slotTree defaultMinor parent (slots ++ [slot])).filters ++ filters } =
      slotTree defaultMinor parent (slots ++ [slot.withFilters (slot.filters ++ filters)]) := by
  rw [slotTree_withFilters]
  simp [slotTree]

/-!
## The last slot is deleted
-/

theorem majorOnly_ne_placeClass (small : place ≤ 1000) : majorOnly 1 ≠ placeClass place := by
  intro same
  have numbers : 0 = place + 2 := ofNat_inj (by decide) (by omega) (new_inj same)
  omega

theorem slot_has_no_classes (small : place ≤ 1000) :
    (slotTree defaultMinor parent slots).classes.any (·.parent = placeClass place) = false := by
  rw [any_eq_false]
  intro tcClass member isParent
  have same := of_decide_eq_true isParent
  rcases mem_cons.mp member with rfl | member
  · exact majorOnly_ne_placeClass small same
  · obtain ⟨one, _, rfl⟩ := mem_map.mp member
    exact placeClass_ne_parent small same

/-!
## Dumping the tree of a recipe

A dump finds the class and the leaf of every slot, and the filters as they
are.
-/

variable {ifindex defaultMinor : BitVec 32} {parent : HtbClassAttrs}
variable {slots : List Slot}

/-- The live tree of the tree of some slots. -/
def slotLive (ifindex defaultMinor : BitVec 32) (parent : HtbClassAttrs)
    (slots : List Slot) : LiveTree :=
  Device.liveTree ⟨ifindex, some (slotTree defaultMinor parent slots)⟩

theorem leaf_parent_ne_root {qdisc : Qdisc} (member : qdisc ∈ slots.filterMap Slot.qdisc) :
    qdisc.parent ≠ ROOT := by
  obtain ⟨slot, _, isLeaf⟩ := mem_filterMap.mp member
  obtain ⟨options, _, rfl⟩ := qdisc_eq_some isLeaf
  exact new_one_ne_root _

theorem rootQdisc_slotLive : (slotLive ifindex defaultMinor parent slots).rootQdisc = some
        { parent := ROOT, handle := majorOnly 1
          options := .htb defaultMinor } := by
  have noRoots : (slots.filterMap Slot.qdisc).filter (·.parent = ROOT) = [] := by
    refine filter_eq_nil_iff.mpr fun qdisc member isRoot => ?_
    exact leaf_parent_ne_root member (of_decide_eq_true isRoot)
  change (List.filter (·.parent = ROOT)
    ({ parent := ROOT, handle := majorOnly 1, options := .htb defaultMinor } ::
      slots.filterMap Slot.qdisc)).getLast? = _
  rw [filter_cons, noRoots]
  rfl

theorem rootHtbDefault_slotLive : rootHtbDefault (slotLive ifindex defaultMinor parent slots) =
      some defaultMinor := by
  rw [rootHtbDefault, rootQdisc_slotLive]
  rfl

/-!
## Classes and leaves
-/

theorem classHandles_nodup (inPlace : InPlace slots) :
    ((slotTree defaultMinor parent slots).classes.map (·.handle)).Nodup := by
  change (TcHandle.new 1 1 :: (slots.map Slot.tcClass).map (·.handle)).Nodup
  rw [nodup_cons, map_map]
  constructor
  · intro member
    obtain ⟨slot, isSlot, same⟩ := mem_map.mp member
    exact placeClass_ne_parent (inPlace.small_of_mem isSlot) same.symm
  · have places := inPlace.nodup
    rw [List.Nodup, pairwise_map] at places ⊢
    refine places.imp_of_mem fun {first second} firstIn secondIn differ => ?_
    exact fun same => differ
      ((placeClass_eq_iff (inPlace.small_of_mem firstIn) (inPlace.small_of_mem secondIn)).mp same)

variable {handle : TcHandle}

theorem tcClass_eq_some_iff (inPlace : InPlace slots) {tcClass : TcClass} :
    (slotLive ifindex defaultMinor parent slots).tcClass handle = some tcClass ↔
      tcClass ∈ (slotTree defaultMinor parent slots).classes ∧ tcClass.handle = handle := by
  have distinct : ((slotTree defaultMinor parent slots).classes.map
      fun tcClass => (tcClass.handle, tcClass)).map Prod.fst |>.Nodup := by
    rw [map_map]
    exact classHandles_nodup inPlace
  change (Std.TreeMap.ofList ((slotTree defaultMinor parent slots).classes.map
    fun tcClass => (tcClass.handle, tcClass)) :
      BTreeMap TcHandle TcClass)[handle]? = some tcClass ↔ _
  rw [BTreeMap.getElem?_ofList distinct, mem_map]
  constructor
  · rintro ⟨other, member, same⟩
    cases same
    exact ⟨member, rfl⟩
  · rintro ⟨member, rfl⟩
    exact ⟨tcClass, member, rfl⟩

theorem tcClass_parent (inPlace : InPlace slots) :
    (slotLive ifindex defaultMinor parent slots).tcClass
      (TcHandle.new 1 1) = some (parentClass parent) :=
  (tcClass_eq_some_iff inPlace).mpr ⟨mem_cons_self, rfl⟩

theorem tcClass_place (inPlace : InPlace slots) {place : Nat} (small : place ≤ 1000) :
    (slotLive ifindex defaultMinor parent slots).tcClass (placeClass place) =
      slots[place]?.map Slot.tcClass := by
  refine Option.ext fun tcClass => ?_
  rw [tcClass_eq_some_iff inPlace, Option.map_eq_some_iff]
  constructor
  · rintro ⟨member, isPlace⟩
    rcases mem_cons.mp member with rfl | member
    · exact absurd isPlace (placeClass_ne_parent small)
    · obtain ⟨slot, isSlot, rfl⟩ := mem_map.mp member
      have places := (placeClass_eq_iff (inPlace.small_of_mem isSlot) small).mp isPlace
      exact ⟨slot, inPlace.mem_and_place_iff.mp ⟨isSlot, places⟩, rfl⟩
  · rintro ⟨slot, found, rfl⟩
    obtain ⟨isSlot, rfl⟩ := inPlace.mem_and_place_iff.mpr found
    exact ⟨mem_cons_of_mem _ (mem_map_of_mem isSlot), rfl⟩

theorem leafFor_place (inPlace : InPlace slots) {place : Nat} (small : place ≤ 1000) :
    (slotLive ifindex defaultMinor parent slots).leafFor (placeClass place) =
      slots[place]?.bind Slot.qdisc := by
  have leaves : (Device.qdiscs ⟨ifindex,
      some (slotTree defaultMinor parent slots)⟩).filter (·.parent ≠ ROOT) =
        slots.filterMap Slot.qdisc := by
    change List.filter (·.parent ≠ ROOT)
      ({ parent := ROOT, handle := majorOnly 1
         options := .htb defaultMinor } ::
        slots.filterMap Slot.qdisc) = _
    rw [filter_cons]
    refine filter_eq_self.mpr fun qdisc member => ?_
    exact decide_eq_true (leaf_parent_ne_root member)
  have distinct : (((slots.filterMap Slot.qdisc).map fun qdisc =>
      (qdisc.parent, qdisc)).map Prod.fst).Nodup := by
    rw [map_map, List.Nodup, pairwise_map, pairwise_filterMap]
    have places := inPlace.nodup
    rw [List.Nodup, pairwise_map] at places
    refine places.imp_of_mem fun {first second} firstIn secondIn differ => ?_
    intro one isOne other isOther
    obtain ⟨_, _, rfl⟩ := qdisc_eq_some isOne
    obtain ⟨_, _, rfl⟩ := qdisc_eq_some isOther
    exact fun same => differ
      ((placeClass_eq_iff (inPlace.small_of_mem firstIn) (inPlace.small_of_mem secondIn)).mp same)
  refine Option.ext fun qdisc => ?_
  change (Std.TreeMap.ofList (((Device.qdiscs ⟨ifindex,
    some (slotTree defaultMinor parent slots)⟩).filter
      (·.parent ≠ ROOT)).map fun qdisc => (qdisc.parent, qdisc)) :
        BTreeMap TcHandle Qdisc)[placeClass place]? = some qdisc ↔ _
  rw [leaves, BTreeMap.getElem?_ofList distinct, mem_map, Option.bind_eq_some_iff]
  constructor
  · rintro ⟨other, member, same⟩
    obtain ⟨sameParent, rfl⟩ := Prod.mk.injEq .. ▸ same
    obtain ⟨slot, isSlot, isLeaf⟩ := mem_filterMap.mp member
    obtain ⟨options, _, rfl⟩ := qdisc_eq_some isLeaf
    have places := (placeClass_eq_iff (inPlace.small_of_mem isSlot) small).mp sameParent
    exact ⟨slot, inPlace.mem_and_place_iff.mp ⟨isSlot, places⟩, isLeaf⟩
  · rintro ⟨slot, found, isLeaf⟩
    obtain ⟨isSlot, rfl⟩ := inPlace.mem_and_place_iff.mpr found
    obtain ⟨options, _, rfl⟩ := qdisc_eq_some isLeaf
    exact ⟨_, mem_filterMap.mpr ⟨slot, isSlot, isLeaf⟩, rfl⟩

/-!
## Stale classes
-/

theorem mem_keys_slotLive (inPlace : InPlace slots) :
    handle ∈ (slotLive ifindex defaultMinor parent slots).classes.keys ↔
      ∃ tcClass ∈ (slotTree defaultMinor parent slots).classes, tcClass.handle = handle := by
  rw [Std.TreeMap.mem_keys, Std.TreeMap.mem_iff_isSome_getElem?, Option.isSome_iff_exists]
  exact exists_congr fun _ => tcClass_eq_some_iff inPlace

theorem staleClass_placeClass {last place : Nat} (lastSmall : last ≤ 1000) (small : place ≤ 1000) :
    staleClass (BitVec.ofNat 16 (last + 2)) (placeClass place) = decide (last < place) := by
  have minorNat : (BitVec.ofNat 16 (place + 2)).toNat = place + 2 := by
    rw [BitVec.toNat_ofNat, Nat.mod_eq_of_lt (by omega)]
  have notZero : BitVec.ofNat 16 (place + 2) ≠ 0 := by
    intro same
    have values := congrArg BitVec.toNat same
    rw [minorNat] at values
    cases values
  have notOne : BitVec.ofNat 16 (place + 2) ≠ 1 := by
    intro same
    have values := congrArg BitVec.toNat same
    rw [minorNat] at values
    cases values
  have atLeast : 2 ≤ BitVec.ofNat 16 (place + 2) := by
    rw [BitVec.le_def, minorNat]
    exact Nat.le_add_left 2 place
  have atMost : BitVec.ofNat 16 (place + 2) ≤ BitVec.ofNat 16 (last + 2) ↔ place ≤ last := by
    rw [BitVec.le_def, minorNat, BitVec.toNat_ofNat,
      Nat.mod_eq_of_lt (by omega), Nat.add_le_add_iff_right]
  rw [staleClass, placeClass, major_new, minor_new, decide_eq_true notZero,
    decide_eq_true notOne, decide_eq_true atLeast]
  by_cases behind : last < place
  · simp [atMost, behind]
  · simp [atMost, behind, Nat.not_lt.mp behind]

theorem staleClass_parent (maxMinor : BitVec 16) :
    staleClass maxMinor (TcHandle.new 1 1) = false := by
  rw [staleClass, minor_new]
  simp

variable {last : Nat}

theorem stale_iff (inPlace : InPlace slots) (lastSmall : last ≤ 1000) :
    handle ∈ ((slotLive ifindex defaultMinor parent slots).classes.keys.filter
        (staleClass (BitVec.ofNat 16 (last + 2)))) ↔
      ∃ slot ∈ slots, last < slot.place ∧ placeClass slot.place = handle := by
  rw [mem_filter, mem_keys_slotLive inPlace]
  constructor
  · rintro ⟨⟨tcClass, member, rfl⟩, isStale⟩
    rcases mem_cons.mp member with rfl | member
    · rw [parentClass, staleClass_parent] at isStale
      cases isStale
    · obtain ⟨slot, isSlot, rfl⟩ := mem_map.mp member
      rw [Slot.tcClass, staleClass_placeClass lastSmall (inPlace.small_of_mem isSlot)] at isStale
      exact ⟨slot, isSlot, of_decide_eq_true isStale, rfl⟩
  · rintro ⟨slot, isSlot, behind, rfl⟩
    refine ⟨⟨slot.tcClass, mem_cons_of_mem _ (mem_map_of_mem isSlot), rfl⟩, ?_⟩
    rw [staleClass_placeClass lastSmall (inPlace.small_of_mem isSlot)]
    exact decide_eq_true behind

theorem stale_eq_nil (inPlace : InPlace slots) (lastSmall : last ≤ 1000)
    (few : slots.length ≤ last + 1) :
    (slotLive ifindex defaultMinor parent slots).classes.keys.filter
      (staleClass (BitVec.ofNat 16 (last + 2))) = [] := by
  refine eq_nil_iff_forall_not_mem.mpr fun handle member => ?_
  obtain ⟨slot, isSlot, behind, _⟩ := (stale_iff inPlace lastSmall).mp member
  have before := inPlace.lt_of_mem isSlot
  omega

/-!
## Filters
-/

theorem rootFilters_slotLive
    (atRoot : ∀ filter ∈ slots.flatMap Slot.filters, filter.parent = majorOnly 1) :
    (slotLive ifindex defaultMinor parent slots).rootFilters = slots.flatMap Slot.filters :=
  filter_eq_self.mpr fun filter member => decide_eq_true (atRoot filter member)

theorem filterAtPriority_slotLive
    (atRoot : ∀ filter ∈ slots.flatMap Slot.filters, filter.parent = majorOnly 1)
    (prio : BitVec 16) :
    (slotLive ifindex defaultMinor parent slots).filterAtPriority prio =
      (slots.flatMap Slot.filters).find? (·.priority = prio) := by
  rw [LiveTree.filterAtPriority, rootFilters_slotLive atRoot]

end Nlink.Tc
