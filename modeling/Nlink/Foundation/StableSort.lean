import Mathlib.Data.List.Basic

namespace Foundation

open List

/-!
# Sorting by a key

A stable sort by a key keeps, for every key, the items with the key as they
stand.  Together with the order of the keys this is all there is to it: two
lists are sorted alike exactly when they have the same items for every key.
-/

/-- The items of a list, sorted by key; items of one key stay in order. -/
def sortByKey (key : α → Nat) (items : List α) : List α :=
  items.mergeSort fun first second => key first ≤ key second

def withKey (key : α → Nat) (wanted : Nat) (items : List α) : List α :=
  items.filter fun item => key item = wanted

variable {key : α → Nat}

theorem decide_key_trans (first second third : α)
    (firstSecond : decide (key first ≤ key second) = true)
    (secondThird : decide (key second ≤ key third) = true) :
    decide (key first ≤ key third) = true :=
  decide_eq_true (Nat.le_trans (of_decide_eq_true firstSecond) (of_decide_eq_true secondThird))

theorem decide_key_total (first second : α) :
    (decide (key first ≤ key second) || decide (key second ≤ key first)) =
      true := by
  rcases Nat.le_total (key first) (key second) with ordered | ordered
  · simp [ordered]
  · simp [ordered]

theorem sortByKey_perm (items : List α) : (sortByKey key items).Perm items :=
  mergeSort_perm items _

theorem sortByKey_pairwise (items : List α) :
    (sortByKey key items).Pairwise fun first second =>
      key first ≤ key second :=
  (pairwise_mergeSort decide_key_trans decide_key_total items).imp
    fun ordered => of_decide_eq_true ordered

variable {items : List α}

theorem mem_sortByKey {item : α} : item ∈ sortByKey key items ↔ item ∈ items :=
  (sortByKey_perm items).mem_iff

theorem findSome?_sortByKey {result : α → Option β} {least : α} {value : β}
    (member : least ∈ items) (isResult : result least = some value)
    (others : ∀ item ∈ items, ∀ other, result item = some other →
      other = value ∨ key least < key item) :
    (sortByKey key items).findSome? result = some value := by
  have sorted : ∀ rest : List α, (rest.Pairwise fun first second => key first ≤ key second) →
      least ∈ rest → (∀ item ∈ rest, item ∈ items) →
      rest.findSome? result = some value := by
    intro rest
    induction rest with
    | nil =>
        intro _ impossible _
        cases impossible
    | cons head tail ih =>
        intro ordered isIn within
        cases found : result head with
        | none =>
            rw [findSome?_cons, found]
            have inTail : least ∈ tail := by
              rcases mem_cons.mp isIn with rfl | later
              · rw [isResult] at found
                cases found
              · exact later
            exact ih ordered.of_cons inTail fun item isItem =>
              within item (mem_cons_of_mem head isItem)
        | some other =>
            rw [findSome?_cons, found]
            rcases others head (within head mem_cons_self) other found with same | greater
            · rw [same]
            · -- The item itself is not behind one of a greater key.
              rcases mem_cons.mp isIn with rfl | later
              · exact absurd greater (Nat.lt_irrefl _)
              · have ordered := rel_of_pairwise_cons ordered later
                omega
  exact sorted _ (sortByKey_pairwise items) (mem_sortByKey.mpr member)
    fun item isItem => mem_sortByKey.mp isItem

theorem sortByKey_map (image : β → α) (items : List β) : sortByKey key (items.map image) =
      (sortByKey (fun item => key (image item)) items).map image := by
  have mapped :=
    map_mergeSort
      (r := fun first second => decide (key (image first) ≤ key (image second)))
      (s := fun first second => decide (key first ≤ key second))
      (f := image) (l := items) fun _ _ _ _ => rfl
  exact mapped.symm

theorem withKey_map (image : β → α) (wanted : Nat) (items : List β) :
    withKey key wanted (items.map image) =
      (withKey (fun item => key (image item)) wanted items).map image := by
  rw [withKey, filter_map]
  rfl

theorem mem_withKey {wanted : Nat} {item : α} :
    item ∈ withKey key wanted items ↔ item ∈ items ∧ key item = wanted := by
  rw [withKey, mem_filter, decide_eq_true_eq]

theorem withKey_sortByKey (wanted : Nat) (items : List α) :
    withKey key wanted (sortByKey key items) = withKey key wanted items := by
  have oneKey :
      (withKey key wanted items).Pairwise fun first second =>
        decide (key first ≤ key second) = true := by
    refine pairwise_of_forall_mem_list ?_
    intro first firstMember second secondMember
    have same : key first = key second :=
      (mem_withKey.mp firstMember).2.trans (mem_withKey.mp secondMember).2.symm
    exact decide_eq_true (Nat.le_of_eq same)
  have kept : (withKey key wanted items).Sublist (sortByKey key items) :=
    sublist_mergeSort decide_key_trans decide_key_total oneKey filter_sublist
  have keptWith : (withKey key wanted items).Sublist
        (withKey key wanted (sortByKey key items)) := by
    have filtered := kept.filter fun item => decide (key item = wanted)
    simpa only [withKey, filter_filter, Bool.and_self] using filtered
  have sameCount : (withKey key wanted items).length =
        (withKey key wanted (sortByKey key items)).length :=
    ((sortByKey_perm items).filter _).length_eq.symm
  exact (keptWith.eq_of_length sameCount).symm

theorem key_head_le {head item : α}
    (sorted : (head :: items).Pairwise fun first second => key first ≤ key second)
    (member : item ∈ head :: items) : key head ≤ key item := by
  rcases mem_cons.mp member with rfl | later
  · exact Nat.le_refl _
  · exact rel_of_pairwise_cons sorted later

variable {first second : List α}

theorem mem_iff_of_withKey
    (same : ∀ wanted, withKey key wanted first = withKey key wanted second) (item : α) :
    item ∈ first ↔ item ∈ second := by
  have alike : item ∈ withKey key (key item) first ↔ item ∈ withKey key (key item) second := by
    rw [same]
  rw [mem_withKey, mem_withKey] at alike
  simpa using alike

theorem eq_of_withKey
    (firstSorted : first.Pairwise fun item other => key item ≤ key other)
    (secondSorted : second.Pairwise fun item other => key item ≤ key other)
    (same : ∀ wanted, withKey key wanted first = withKey key wanted second) : first = second := by
  induction first generalizing second with
  | nil =>
      refine (eq_nil_iff_forall_not_mem.mpr fun item member => ?_).symm
      exact not_mem_nil ((mem_iff_of_withKey same item).mpr member)
  | cons head tail ih =>
      cases second with
      | nil => exact absurd ((mem_iff_of_withKey same head).mp mem_cons_self) not_mem_nil
      | cons other rest =>
          -- Each head has the least key of all.
          have otherFirst : key other ≤ key head :=
            key_head_le secondSorted ((mem_iff_of_withKey same head).mp mem_cons_self)
          have headFirst : key head ≤ key other :=
            key_head_le firstSorted ((mem_iff_of_withKey same other).mpr mem_cons_self)
          have sameKey : key other = key head := Nat.le_antisymm otherFirst headFirst
          have heads : head = other := by
            have least := same (key head)
            simp only [withKey, filter_cons, sameKey, decide_true, if_true] at least
            exact (List.cons.inj least).1
          subst heads
          have tails : ∀ wanted, withKey key wanted tail = withKey key wanted rest := by
            intro wanted
            have here := same wanted
            simp only [withKey, filter_cons] at here ⊢
            split at here
            · exact (List.cons.inj here).2
            · exact here
          rw [ih firstSorted.of_cons secondSorted.of_cons tails]

theorem sortByKey_eq_iff : sortByKey key first = sortByKey key second ↔
      ∀ wanted, withKey key wanted first = withKey key wanted second := by
  constructor
  · intro sortedAlike wanted
    rw [← withKey_sortByKey, sortedAlike, withKey_sortByKey]
  · intro same
    refine eq_of_withKey (sortByKey_pairwise first) (sortByKey_pairwise second) fun wanted => ?_
    rw [withKey_sortByKey, withKey_sortByKey, same]

theorem sortByKey_eq_iff_perm (injective : Function.Injective key) :
    sortByKey key first = sortByKey key second ↔ first.Perm second := by
  constructor
  · intro same
    have sorted : (sortByKey key first).Perm first := sortByKey_perm first
    rw [same] at sorted
    exact sorted.symm.trans (sortByKey_perm second)
  · intro perm
    refine List.Perm.eq_of_pairwise
      (fun item other _ _ below above => injective (Nat.le_antisymm below above))
      (sortByKey_pairwise first) (sortByKey_pairwise second) ?_
    exact (sortByKey_perm first).trans (perm.trans (sortByKey_perm second).symm)

end Foundation
