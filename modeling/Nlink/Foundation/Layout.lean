import Mathlib.Algebra.GroupWithZero.Nat
import Mathlib.Data.List.Basic

namespace Foundation

open List

/-!
# Laying out items of different sizes

Items are written one after another; the offset of an item is the sum of the
sizes before it.  Walking the written bytes by the size of each item visits
exactly the offsets of the items.
-/

namespace Layout

/-- The offset of the item at an index: the sum of the sizes before it. -/
def offset (size : α → Nat) (items : List α) (index : Nat) : Nat :=
  ((items.take index).map size).sum

/-- The size of all items together. -/
def total (size : α → Nat) (items : List α) : Nat :=
  (items.map size).sum

variable (size : α → Nat)

section

variable (items : List α)

include items

@[simp]
theorem offset_zero : offset size items 0 = 0 := by
  simp [offset]

@[simp]
theorem offset_length : offset size items items.length = total size items := by
  simp [offset, total]

theorem offset_of_length_le {index : Nat}
    (past : items.length ≤ index) : offset size items index = total size items := by
  rw [offset, total, take_of_length_le past]

theorem offset_succ (index : Nat) (inside : index < items.length) :
    offset size items (index + 1) = offset size items index + size items[index] := by
  rw [offset, offset, take_succ_eq_append_getElem inside, map_append, List.sum_append]
  simp only [map_cons, map_nil, sum_singleton]

theorem offset_mono {first second : Nat}
    (ordered : first ≤ second) : offset size items first ≤ offset size items second := by
  induction ordered with
  | refl => exact Nat.le_refl _
  | @step middle _ ih =>
      by_cases inside : middle < items.length
      · rw [offset_succ size items middle inside]
        omega
      · rw [offset_of_length_le size items (by omega : items.length ≤ middle)] at ih
        rw [offset_of_length_le size items (by omega : items.length ≤ middle + 1)]
        exact ih

theorem offset_le_total (index : Nat) : offset size items index ≤ total size items := by
  by_cases inside : index ≤ items.length
  · rw [← offset_length]
    exact offset_mono size items inside
  · exact Nat.le_of_eq (offset_of_length_le size items (by omega : items.length ≤ index))

theorem dvd_offset {unit : Nat} (multiples : ∀ item ∈ items, unit ∣ size item) (index : Nat) :
    unit ∣ offset size items index := by
  induction index with
  | zero => simp
  | succ index ih =>
      by_cases inside : index < items.length
      · rw [offset_succ size items index inside]
        exact Nat.dvd_add ih (multiples items[index] (getElem_mem inside))
      · rw [offset_of_length_le size items (by omega : items.length ≤ index)] at ih
        rwa [offset_of_length_le size items (by omega : items.length ≤ index + 1)]

theorem index_lt_of_offset_lt {first second : Nat}
    (smaller : offset size items first < offset size items second) : first < second := by
  by_contra notLess
  have reversed := offset_mono size items (Nat.le_of_not_lt notLess)
  omega

end

theorem drop_offset_flatten (chunks : List (List β)) (index : Nat) :
    chunks.flatten.drop (offset List.length chunks index) = (chunks.drop index).flatten := by
  have split : chunks.flatten = (chunks.take index).flatten ++ (chunks.drop index).flatten := by
    rw [← flatten_append, take_append_drop]
  have leading : (chunks.take index).flatten.length = offset List.length chunks index := by
    rw [List.length_flatten, offset]
  rw [split, ← leading, drop_left]

theorem drop_offset_eq_append (chunks : List (List β)) (index : Nat)
    (inside : index < chunks.length) :
    chunks.flatten.drop (offset List.length chunks index) = chunks[index] ++
        chunks.flatten.drop (offset List.length chunks (index + 1)) := by
  rw [drop_offset_flatten, drop_offset_flatten, drop_eq_getElem_cons inside, flatten_cons]

theorem length_flatten (chunks : List (List β)) :
    chunks.flatten.length = total List.length chunks := by
  rw [List.length_flatten, total]

theorem offset_congr (leftSize : α → Nat) (rightSize : β → Nat) {left : List α} {right : List β}
    (sameSizes : left.map leftSize = right.map rightSize) (index : Nat) :
    offset leftSize left index = offset rightSize right index := by
  rw [offset, offset, map_take, map_take, sameSizes]

end Layout

end Foundation
