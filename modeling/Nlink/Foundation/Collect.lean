import Mathlib.Data.List.Forall2

namespace Foundation

open List

/-!
# Items that are read one after another

A loop that reads each item and adds what the item is read as does what reading
all of them first would do.  It fails exactly if one of them cannot be read.
-/

variable {ε σ α β γ : Type}

theorem exists_of_map_ok {call : Except ε α} {give : α → β} {result : β}
    (isOk : call.map give = .ok result) : ∃ value, call = .ok value ∧ give value = result := by
  cases call with
  | error reason => cases isOk
  | ok value => exact ⟨value, rfl, Except.ok.inj isOk⟩

theorem ok_of_toOption {call : Except ε α} {result : α} (isSome : call.toOption = some result) :
    call = .ok result := by
  cases call with
  | error reason => cases isSome
  | ok value => exact congrArg Except.ok (Option.some.inj isSome)

variable {items : List α}

theorem forall₂_filterMap_iff {relation : β → α → Prop} {read : α → Option β} :
    List.Forall₂ relation (items.filterMap read) items ↔
      ∀ item ∈ items, ∃ value, read item = some value ∧ relation value item := by
  constructor
  · intro related
    have noneDropped : ∀ item ∈ items, (read item).isSome :=
      filterMap_length_eq_length.mp related.length_eq
    induction items with
    | nil => exact forall_mem_nil _
    | cons item items ih =>
        obtain ⟨isSome, laterSome⟩ := forall_mem_cons.mp noneDropped
        obtain ⟨value, isValue⟩ := Option.isSome_iff_exists.mp isSome
        rw [filterMap_cons_some isValue, forall₂_cons] at related
        exact forall_mem_cons.mpr ⟨⟨value, isValue, related.1⟩, ih related.2 laterSome⟩
  · intro each
    induction items with
    | nil => exact .nil
    | cons item items ih =>
        obtain ⟨⟨value, isValue, isRelated⟩, later⟩ := forall_mem_cons.mp each
        rw [filterMap_cons_some isValue]
        exact .cons isRelated (ih later)

theorem exists_of_foldlM {step : σ → α → Except ε σ} {Kept : σ → Prop}
    (steps : ∀ item ∈ items, ∀ state, Kept state → ∃ next, step state item = .ok next ∧ Kept next)
    {state : σ} (kept : Kept state) :
    ∃ final, items.foldlM step state = .ok final ∧ Kept final := by
  induction items generalizing state with
  | nil => exact ⟨state, rfl, kept⟩
  | cons item items ih =>
      obtain ⟨first, later⟩ := forall_mem_cons.mp steps
      obtain ⟨next, isNext, nextKept⟩ := first state kept
      rw [foldlM_cons, isNext]
      exact ih later nextKept

theorem mapM_guard {read : α → Option β} {result : α → β} {guard : α → Prop} [DecidablePred guard]
    (each : ∀ item ∈ items, read item = if guard item then some (result item) else none) :
    items.mapM read = if ∀ item ∈ items, guard item then some (items.map result) else none := by
  induction items with
  | nil => rfl
  | cons item rest ih =>
      obtain ⟨first, later⟩ := forall_mem_cons.mp each
      rw [mapM_cons, first, ih later]
      by_cases here : guard item
      · by_cases behind : ∀ item ∈ rest, guard item
        · rw [if_pos here, if_pos behind, if_pos (forall_mem_cons.mpr ⟨here, behind⟩)]
          rfl
        · rw [if_pos here, if_neg behind, if_neg fun all => behind (forall_mem_cons.mp all).2]
          rfl
      · rw [if_neg here, if_neg fun all => here (forall_mem_cons.mp all).1]
        rfl

end Foundation
