import Mathlib.Data.List.AList
import Mathlib.Data.List.Basic
import Mathlib.Data.List.Induction
import Mathlib.Data.List.Nodup

namespace Foundation

open List

/-!
# Lists searched by a key

The first item of a list that has a given key.
-/

section

variable {α κ : Type} [DecidableEq κ] {keyOf : α → κ} {items : List α}

/-- The first item with a key. -/
def lookupBy (keyOf : α → κ) (items : List α) (key : κ) : Option α :=
  items.find? fun item => keyOf item = key

/-- What a lookup finds is an item with the key. -/
theorem mem_of_lookupBy {key : κ} {item : α} (found : lookupBy keyOf items key = some item) :
    item ∈ items ∧ keyOf item = key := by
  rw [lookupBy] at found
  refine ⟨mem_of_find?_eq_some found, ?_⟩
  have isKey := find?_some found
  exact of_decide_eq_true isKey

/-- Under distinct keys a lookup finds exactly the item with the key. -/
theorem lookupBy_eq_some_iff (distinct : (items.map keyOf).Nodup) {key : κ} {item : α} :
    lookupBy keyOf items key = some item ↔ item ∈ items ∧ keyOf item = key := by
  refine ⟨mem_of_lookupBy, ?_⟩
  rintro ⟨member, isKey⟩
  cases found : lookupBy keyOf items key with
  | none =>
      rw [lookupBy, find?_eq_none] at found
      exact absurd (decide_eq_true isKey) (found item member)
  | some other =>
      obtain ⟨otherMember, otherKey⟩ := mem_of_lookupBy found
      rw [inj_on_of_nodup_map distinct otherMember member (otherKey.trans isKey.symm)]

theorem lookupBy_eq_none_iff {key : κ} :
    lookupBy keyOf items key = none ↔ key ∉ items.map keyOf := by
  rw [lookupBy, find?_eq_none, mem_map]
  constructor
  · rintro absent ⟨item, member, isKey⟩
    exact absent item member (decide_eq_true isKey)
  · intro absent item member isKey
    exact absent ⟨item, member, of_decide_eq_true isKey⟩

theorem lookupBy_map {image : α → α} (kept : ∀ item, keyOf (image item) = keyOf item) (key : κ) :
    lookupBy keyOf (items.map image) key = (lookupBy keyOf items key).map image := by
  rw [lookupBy, find?_map]
  congr 2
  funext item
  simp [kept]

theorem lookupBy_snoc (item : α) (key : κ) : lookupBy keyOf (items ++ [item]) key =
      (lookupBy keyOf items key).or (if keyOf item = key then some item else none) := by
  rw [lookupBy, find?_append]
  congr 1
  by_cases isKey : keyOf item = key <;> simp [isKey]

theorem lookupBy_filter_ne (dropped key : κ) :
    lookupBy keyOf (items.filter fun item => keyOf item ≠ dropped) key =
      if key = dropped then none else lookupBy keyOf items key := by
  rw [lookupBy, find?_filter]
  split
  · rename_i same
    rw [same, find?_eq_none]
    intro item _
    simp
  · rename_i different
    rw [lookupBy]
    congr 1
    funext item
    by_cases isKey : keyOf item = key
    · simp [isKey, different]
    · simp [isKey]

end

/-!
## Ordered maps

A B-tree map is iterated in the order of its keys.
-/

open Std

abbrev BTreeMap (κ ν : Type) [Ord κ] := TreeMap κ ν

namespace BTreeMap

variable {κ ν : Type} [Ord κ] [TransOrd κ]

variable [LawfulEqOrd κ]

/-- A map made of pairs with distinct keys holds exactly these. -/
theorem getElem?_ofList {pairs : List (κ × ν)} (distinct : (pairs.map Prod.fst).Nodup) {key : κ}
    {value : ν} :
    (TreeMap.ofList pairs : BTreeMap κ ν)[key]? = some value ↔ (key, value) ∈ pairs := by
  have apart : pairs.Pairwise fun one other =>
      ¬ compare one.1 other.1 = .eq := by
    rw [List.Nodup, pairwise_map] at distinct
    exact distinct.imp fun different same => different (LawfulEqOrd.eq_of_compare same)
  constructor
  · intro found
    have isKey : key ∈ (TreeMap.ofList pairs : BTreeMap κ ν) := by
      rw [TreeMap.mem_iff_isSome_getElem?, found]
      rfl
    classical
    rw [TreeMap.mem_ofList, contains_iff_mem, mem_map] at isKey
    obtain ⟨⟨other, otherValue⟩, mem, rfl⟩ := isKey
    rw [TreeMap.getElem?_ofList_of_mem compare_self apart mem] at found
    cases found
    exact mem
  · intro mem
    exact TreeMap.getElem?_ofList_of_mem compare_self apart mem

end BTreeMap

/-!
## Updating or adding one item of a list

A store that is kept as a list changes the items that match a name, and adds a
new item at the end when none does.
-/

/-- Update the matching items, or add one when there is none. -/
def upsert (isNamed : α → Bool) (update : α → α) (fresh : α) (items : List α) : List α :=
  if items.any isNamed then
    items.map fun item => if isNamed item then update item else item
  else
    items ++ [fresh]

section

variable {isNamed : α → Bool} {update : α → α} {fresh : α} {items : List α}

theorem upsert_of_none (none : ∀ item ∈ items, isNamed item = false) :
    upsert isNamed update fresh items = items ++ [fresh] := by
  have absent : items.any isNamed = false := by simpa [any_eq_false] using none
  rw [upsert, absent]
  rfl

theorem exists_upsert_iff {property : α → Prop}
    (updated : ∀ item, property (update item) ↔ property item)
    (ofNamed : ∀ item, isNamed item = true → (property item ↔ property fresh)) :
    (∃ item ∈ upsert isNamed update fresh items, property item) ↔
      (∃ item ∈ items, property item) ∨ property fresh := by
  rw [upsert]
  split
  · rename_i some
    obtain ⟨named, namedMember, isNamed'⟩ := any_eq_true.mp some
    have same : (∃ item ∈ items.map fun item =>
          if isNamed item then update item else item, property item) ↔
        ∃ item ∈ items, property item := by
      constructor
      · rintro ⟨_, member, holds⟩
        obtain ⟨item, itemMember, rfl⟩ := mem_map.mp member
        refine ⟨item, itemMember, ?_⟩
        split at holds
        · exact (updated item).mp holds
        · exact holds
      · rintro ⟨item, itemMember, holds⟩
        refine ⟨_, mem_map.mpr ⟨item, itemMember, rfl⟩, ?_⟩
        split
        · exact (updated item).mpr holds
        · exact holds
    rw [same]
    constructor
    · exact Or.inl
    · rintro (held | freshHas)
      · exact held
      · exact ⟨named, namedMember, (ofNamed named isNamed').mpr freshHas⟩
  · simp only [mem_append, mem_singleton, or_and_right, exists_or, exists_eq_left]

theorem upsert_nodup {nameOf : α → ν} (updated : ∀ item, nameOf (update item) = nameOf item)
    (isNamed_iff : ∀ item, isNamed item = true ↔ nameOf item = nameOf fresh)
    (distinct : (items.map nameOf).Nodup) :
    ((upsert isNamed update fresh items).map nameOf).Nodup := by
  rw [upsert]
  split
  · rw [map_map]
    have sameNames : (items.map (nameOf ∘ fun item =>
        if isNamed item then update item else item)) = items.map nameOf := by
      refine map_congr_left fun item _ => ?_
      simp only [Function.comp_apply]
      split
      · exact updated item
      · rfl
    rw [sameNames]
    exact distinct
  · rename_i none
    rw [map_append, map_singleton, nodup_append]
    refine ⟨distinct, by simp, ?_⟩
    rintro name member _ isFresh rfl
    obtain ⟨item, itemMember, rfl⟩ := mem_map.mp member
    refine none (any_eq_true.mpr ⟨item, itemMember, ?_⟩)
    exact (isNamed_iff item).mpr (mem_singleton.mp isFresh)

end

/-!
## Maps

A hash map is a list of entries with distinct keys, in the order in which it is
iterated.  Collecting pairs into a map keeps the last value of a key.
-/

abbrev HashMap (κ ν : Type) := AList fun _ : κ => ν

namespace HashMap

variable {κ ν : Type}

/-- The entries in the order of iteration. -/
def pairs (map : HashMap κ ν) : List (κ × ν) :=
  map.entries.map fun entry => (entry.1, entry.2)

variable [DecidableEq κ]

def collect (pairs : List (κ × ν)) : HashMap κ ν :=
  pairs.foldl (fun map pair => map.insert pair.1 pair.2) ∅

variable {key : κ} {value : ν}

theorem mem_pairs_iff {map : HashMap κ ν} :
    (key, value) ∈ map.pairs ↔ map.lookup key = some value := by
  rw [← Option.mem_def, AList.mem_lookup_iff, pairs, mem_map]
  constructor
  · rintro ⟨⟨entryKey, entryValue⟩, member, same⟩
    cases same
    exact member
  · intro member
    exact ⟨_, member, rfl⟩

omit [DecidableEq κ] in
theorem nodup_pairs (map : HashMap κ ν) : (map.pairs.map Prod.fst).Nodup := by
  rw [pairs, map_map]
  exact map.nodupKeys

theorem collect_snoc (pairs : List (κ × ν)) (pair : κ × ν) :
    collect (pairs ++ [pair]) = (collect pairs).insert pair.1 pair.2 := by
  rw [collect, foldl_append]
  rfl

variable {pairs : List (κ × ν)}

/-- What is found in a collected map is among its pairs. -/
theorem mem_of_lookup_collect
    (found : (collect pairs).lookup key = some value) : (key, value) ∈ pairs := by
  induction pairs using List.reverseRecOn with
  | nil => cases found
  | append_singleton pairs pair ih =>
      rw [collect_snoc] at found
      by_cases same : key = pair.1
      · subst same
        rw [AList.lookup_insert, Option.some.injEq] at found
        subst found
        exact mem_append_right _ (mem_singleton_self _)
      · rw [AList.lookup_insert_ne same] at found
        exact mem_append_left _ (ih found)

theorem exists_lookup_collect
    (member : (key, value) ∈ pairs) : ∃ last, (collect pairs).lookup key = some last := by
  induction pairs using List.reverseRecOn with
  | nil => cases member
  | append_singleton pairs pair ih =>
      rw [collect_snoc]
      by_cases same : key = pair.1
      · subst same
        exact ⟨pair.2, AList.lookup_insert _⟩
      · rw [AList.lookup_insert_ne same]
        rcases mem_append.mp member with old | new
        · exact ih old
        · cases mem_singleton.mp new
          exact absurd rfl same

/-- What is collected later takes the place of what was collected before. -/
theorem lookup_collect_append (pairs later : List (κ × ν)) (key : κ) :
    (collect (pairs ++ later)).lookup key =
      ((collect later).lookup key).or ((collect pairs).lookup key) := by
  induction later using List.reverseRecOn with
  | nil =>
      rw [List.append_nil]
      rfl
  | append_singleton later pair ih =>
      rw [← List.append_assoc, collect_snoc, collect_snoc]
      by_cases same : key = pair.1
      · subst same
        rw [AList.lookup_insert, AList.lookup_insert, Option.some_or]
      · rw [AList.lookup_insert_ne same, AList.lookup_insert_ne same, ih]

theorem lookup_collect_iff (distinct : (pairs.map Prod.fst).Nodup) :
    (collect pairs).lookup key = some value ↔ (key, value) ∈ pairs := by
  refine ⟨mem_of_lookup_collect, fun member => ?_⟩
  obtain ⟨last, found⟩ := exists_lookup_collect member
  have same := inj_on_of_nodup_map distinct member (mem_of_lookup_collect found) rfl
  rw [found, (Prod.mk.inj same).2]

end HashMap

/-!
## Maps that invert each other

Two maps are inverse if each leads back from what the other holds.  A pair that
both maps are given keeps them inverse if neither its key nor its value is in use.
-/

variable {κ ν : Type} [DecidableEq κ] [DecidableEq ν]

/-- Each of two maps leads back from what the other holds. -/
def Inverse (forward : HashMap κ ν) (backward : HashMap ν κ) : Prop :=
  ∀ key value, forward.lookup key = some value ↔ backward.lookup value = some key

namespace Inverse

theorem empty : Inverse (∅ : HashMap κ ν) ∅ := by
  intro key value
  rw [AList.lookup_empty, AList.lookup_empty]
  exact iff_of_false nofun nofun

variable {forward : HashMap κ ν} {backward : HashMap ν κ} {key : κ} {value : ν}

/-- A pair keeps maps inverse, if its value is not in use, exactly if its key is
not in use either. -/
theorem insert_iff (inverse : Inverse forward backward)
    (freshValue : backward.lookup value = none) :
    Inverse (forward.insert key value) (backward.insert value key) ↔
      forward.lookup key = none := by
  constructor
  · intro stillInverse
    rw [Option.eq_none_iff_forall_ne_some]
    intro old held
    have back := (inverse key old).mp held
    have other : old ≠ value := by
      rintro rfl
      rw [freshValue] at back
      cases back
    have kept : (backward.insert value key).lookup old = some key := by
      rw [AList.lookup_insert_ne other, back]
    rw [← stillInverse, AList.lookup_insert] at kept
    exact other (Option.some.inj kept).symm
  · intro freshKey someKey someValue
    by_cases sameKey : someKey = key
    · subst sameKey
      rw [AList.lookup_insert]
      by_cases sameValue : someValue = value
      · rw [sameValue, AList.lookup_insert]
        exact iff_of_true rfl rfl
      · rw [AList.lookup_insert_ne sameValue, ← inverse, freshKey]
        exact iff_of_false (fun same => sameValue (Option.some.inj same).symm) nofun
    · rw [AList.lookup_insert_ne sameKey]
      by_cases sameValue : someValue = value
      · rw [sameValue, AList.lookup_insert, inverse, freshValue]
        exact iff_of_false nofun fun same => sameKey (Option.some.inj same).symm
      · rw [AList.lookup_insert_ne sameValue, inverse]

theorem key_eq (inverse : Inverse forward backward) {other : κ}
    (held : forward.lookup key = some value) (otherHeld : forward.lookup other = some value) :
    key = other :=
  Option.some.inj (((inverse key value).mp held).symm.trans ((inverse other value).mp otherHeld))

/-- The values of a map with an inverse are distinct. -/
theorem nodup_values (inverse : Inverse forward backward) : (forward.pairs.map Prod.snd).Nodup := by
  refine (HashMap.nodup_pairs forward).of_map _ |>.map_on ?_
  rintro ⟨key, value⟩ member ⟨other, otherValue⟩ otherMember same
  obtain rfl : value = otherValue := same
  rw [inverse.key_eq (HashMap.mem_pairs_iff.mp member) (HashMap.mem_pairs_iff.mp otherMember)]

end Inverse

end Foundation
