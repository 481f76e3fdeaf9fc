import Mathlib.Logic.Function.Basic
import Nlink.Foundation.Effect
import Mathlib.Data.List.Induction

namespace Foundation

open List

/-!
# Programs that each change one cell of a state

A state is seen as a family of cells.  When each program of a list acts on one
cell only, the list acts on every cell as the programs of that cell do, in their
order, and succeeds when they do on every cell.
-/

variable {ε σ κ α ι : Type} [DecidableEq κ]

theorem filter_flatMap_of_key {ι β : Type} {keyOf : ι → κ} {label : β → κ} {entries : ι → List β}
    {items : List ι}
    (labelled : ∀ item ∈ items, ∀ entry ∈ entries item, label entry = keyOf item)
    (distinct : (items.map keyOf).Nodup) {item : ι} (member : item ∈ items) :
    (items.flatMap entries).filter (label · = keyOf item) = entries item := by
  induction items with
  | nil => cases member
  | cons first rest ih =>
      rw [map_cons, nodup_cons] at distinct
      rw [flatMap_cons, filter_append]
      rcases mem_cons.mp member with rfl | later
      · have own : (entries item).filter (label · = keyOf item) = entries item := by
          rw [filter_eq_self]
          intro entry mem
          exact decide_eq_true (labelled item mem_cons_self entry mem)
        have others : (rest.flatMap entries).filter (label · = keyOf item) = [] := by
          rw [filter_eq_nil_iff]
          intro entry mem isKey
          obtain ⟨other, otherMem, entryMem⟩ := mem_flatMap.mp mem
          have otherKey := labelled other (mem_cons_of_mem _ otherMem) entry entryMem
          rw [of_decide_eq_true isKey] at otherKey
          exact distinct.1 (otherKey ▸ mem_map_of_mem otherMem)
        rw [own, others, List.append_nil]
      · have different : keyOf first ≠ keyOf item := fun same =>
          distinct.1 (same ▸ mem_map_of_mem later)
        have none : (entries first).filter (label · = keyOf item) = [] := by
          rw [filter_eq_nil_iff]
          intro entry mem isKey
          have firstKey := labelled first mem_cons_self entry mem
          exact different (firstKey.symm.trans (of_decide_eq_true isKey))
        rw [none, List.nil_append]
        exact ih (fun other mem => labelled other (mem_cons_of_mem _ mem)) distinct.2 later

theorem filter_flatMap_of_no_key {ι β : Type} {keyOf : ι → κ} {label : β → κ} {entries : ι → List β}
    {items : List ι}
    (labelled : ∀ item ∈ items, ∀ entry ∈ entries item, label entry = keyOf item) {key : κ}
    (absent : ∀ item ∈ items, keyOf item ≠ key) :
    (items.flatMap entries).filter (label · = key) = [] := by
  rw [filter_eq_nil_iff]
  intro entry mem isKey
  obtain ⟨item, itemMem, entryMem⟩ := mem_flatMap.mp mem
  have isLabel := labelled item itemMem entry entryMem
  exact absent item itemMem (isLabel.symm.trans (of_decide_eq_true isKey))

end Foundation
