import Mathlib.Data.List.Basic

namespace Foundation

open List

/-!
# Batches of operations over a state

A batch is a list of operations, each with a total effect on a state.  A check
that must hold of every operation in the state it meets splits over the
concatenation of batches, and holds along a batch when an invariant implies it.
-/

section Along

variable (effect : σ → ο → σ)
variable (check : σ → ο → Prop)

/-- Every operation passes a check in the state in which it is reached. -/
def Along : σ → List ο → Prop
  | _, [] => True
  | state, operation :: rest => check state operation ∧ Along (effect state operation) rest

@[simp]
theorem along_nil (state : σ) : Along effect check state [] :=
  trivial

@[simp]
theorem along_cons (state : σ) (operation : ο) (rest : List ο) :
    Along effect check state (operation :: rest) ↔ check state operation ∧
        Along effect check (effect state operation) rest :=
  Iff.rfl

/-- A check along two batches is one along each. -/
theorem along_append (state : σ) (first second : List ο) :
    Along effect check state (first ++ second) ↔ Along effect check state first ∧
        Along effect check (first.foldl effect state) second := by
  induction first generalizing state with
  | nil => simp
  | cons operation rest ih => simp [ih, and_assoc]

variable {effect check}

/-- What every operation of a batch keeps, the batch keeps. -/
theorem foldl_invariant {invariant : σ → Prop} {operations : List ο}
    (kept : ∀ state, invariant state → ∀ operation ∈ operations, invariant (effect state operation))
    {state : σ} (start : invariant state) : invariant (operations.foldl effect state) := by
  induction operations generalizing state with
  | nil => exact start
  | cons operation rest ih =>
      exact ih
        (fun state holds other member => kept state holds other (mem_cons_of_mem _ member))
        (kept state start operation (mem_cons_self ..))

variable {state : σ} {operations : List ο}

theorem along_of_invariant {invariant : σ → Prop}
    (kept : ∀ state, invariant state → ∀ operation ∈ operations, invariant (effect state operation))
    (passes : ∀ state, invariant state → ∀ operation ∈ operations, check state operation)
    (start : invariant state) : Along effect check state operations := by
  induction operations generalizing state with
  | nil => trivial
  | cons operation rest ih =>
      exact ⟨passes state start operation (mem_cons_self ..), ih
            (fun state holds other member => kept state holds other (mem_cons_of_mem _ member))
            (fun state holds other member => passes state holds other (mem_cons_of_mem _ member))
            (kept state start operation (mem_cons_self ..))⟩

theorem along_of_always
    (passes : ∀ state, ∀ operation ∈ operations, check state operation) (state : σ) :
    Along effect check state operations := by
  induction operations generalizing state with
  | nil => trivial
  | cons operation rest ih =>
      exact ⟨passes state operation (mem_cons_self ..), ih
            (fun reached other member => passes reached other (mem_cons_of_mem _ member)) _⟩

theorem along_iff_split : Along effect check state operations ↔
      ∀ before operation after, operations = before ++ operation :: after →
        check (before.foldl effect state) operation := by
  constructor
  · rintro along before operation after rfl
    rw [along_append] at along
    exact along.2.1
  · intro passes
    induction operations generalizing state with
    | nil => trivial
    | cons first rest ih =>
        refine ⟨passes [] first rest rfl, ih ?_⟩
        rintro before operation after rfl
        exact passes (first :: before) operation after rfl

theorem along_iff_start {view : σ → τ}
    (unchanged : ∀ state, ∀ operation ∈ operations, view (effect state operation) = view state)
    (seen : ∀ first second, view first = view second → ∀ operation ∈ operations,
        (check first operation ↔ check second operation))
    :
    Along effect check state operations ↔ ∀ operation ∈ operations, check state operation := by
  induction operations generalizing state with
  | nil => simp
  | cons operation rest ih =>
      have passesRest : Along effect check (effect state operation) rest ↔
          ∀ other ∈ rest, check (effect state operation) other :=
        ih
          (fun reached other member => unchanged reached other (mem_cons_of_mem _ member))
          (fun first second same other member =>
            seen first second same other (mem_cons_of_mem _ member))
      rw [along_cons, passesRest, forall_mem_cons]
      refine and_congr_right fun _ => forall₂_congr fun other member => ?_
      exact seen _ _ (unchanged state operation (mem_cons_self ..)) other (mem_cons_of_mem _ member)

theorem along_iff_of_names {nameOf : ο → ν} (distinct : (operations.map nameOf).Nodup)
    (seen : ∀ state, ∀ operation ∈ operations, ∀ other ∈ operations,
      nameOf operation ≠ nameOf other → (check (effect state operation) other ↔ check state other))
    (state : σ) :
    Along effect check state operations ↔ ∀ operation ∈ operations, check state operation := by
  induction operations generalizing state with
  | nil => simp
  | cons operation rest ih =>
      rw [map_cons, nodup_cons] at distinct
      rw [along_cons, forall_mem_cons, ih distinct.2
          (fun reached first firstMember second secondMember =>
            seen reached first (mem_cons_of_mem _ firstMember) second
              (mem_cons_of_mem _ secondMember))]
      refine and_congr_right fun _ => forall₂_congr fun other member => ?_
      refine seen state operation (mem_cons_self ..) other (mem_cons_of_mem _ member) ?_
      intro sameName
      rw [sameName] at distinct
      exact distinct.1 (mem_map_of_mem member)

theorem Along.view_append {view : σ → List τ} {toOperation : ι → ο} {added : ι → τ} {items : List ι}
    (each : ∀ state, ∀ item ∈ items, check state (toOperation item) →
      view (effect state (toOperation item)) = view state ++ [added item])
    (along : Along effect check state (items.map toOperation)) :
    view ((items.map toOperation).foldl effect state) = view state ++ items.map added := by
  induction items generalizing state with
  | nil => simp
  | cons item rest ih =>
      rw [map_cons, foldl_cons, ih
          (fun reached other member => each reached other (mem_cons_of_mem _ member)) along.2,
        each state item (mem_cons_self ..) along.1, map_cons,
        List.append_assoc]
      rfl

end Along

variable {operations : List ο}

variable (effect : σ → ο → σ)

/-- What operations can only end holds after a batch if it did and none ends it. -/
theorem foldl_and_iff (holds : σ → Prop) {keeps : ο → Prop}
    (each : ∀ state, ∀ operation ∈ operations,
      (holds (effect state operation) ↔ holds state ∧ keeps operation))
    (state : σ) :
    holds (operations.foldl effect state) ↔
      holds state ∧ ∀ operation ∈ operations, keeps operation := by
  induction operations generalizing state with
  | nil => simp
  | cons first rest ih =>
      rw [foldl_cons, ih
          (fun state operation member => each state operation (mem_cons_of_mem _ member)),
        each state first (mem_cons_self ..), forall_mem_cons,
        and_assoc]

/-- What operations can only bring about holds after a batch if it did or one makes it. -/
theorem foldl_or_iff (holds : σ → Prop) {makes : ο → Prop}
    (each : ∀ state, ∀ operation ∈ operations,
      (holds (effect state operation) ↔ holds state ∨ makes operation))
    (state : σ) :
    holds (operations.foldl effect state) ↔
      holds state ∨ ∃ operation ∈ operations, makes operation := by
  induction operations generalizing state with
  | nil => simp
  | cons first rest ih =>
      rw [foldl_cons, ih
          (fun state operation member => each state operation (mem_cons_of_mem _ member)),
        each state first (mem_cons_self ..), exists_mem_cons_iff,
        or_assoc]

theorem foldl_view {effect : σ → ο → σ} {view : σ → τ} {viewed : τ → ο → τ}
    (each : ∀ state, ∀ operation ∈ operations,
      view (effect state operation) = viewed (view state) operation)
    (state : σ) : view (operations.foldl effect state) = operations.foldl viewed (view state) := by
  induction operations generalizing state with
  | nil => rfl
  | cons operation rest ih =>
      rw [foldl_cons, foldl_cons, ih
          (fun state other member => each state other (mem_cons_of_mem _ member)),
        each state operation (mem_cons_self ..)]

/-- What no operation changes is the same after the batch. -/
theorem foldl_unchanged (view : σ → τ)
    (each : ∀ state, ∀ operation ∈ operations, view (effect state operation) = view state)
    (state : σ) : view (operations.foldl effect state) = view state := by
  have start : (fun reached => view reached = view state) state := rfl
  exact foldl_invariant
    (fun reached same operation member => (each reached operation member).trans same) start

theorem foldl_filter (keeps : ο → α → Bool) (operations : List ο) (items : List α) :
    operations.foldl (fun items operation => items.filter (keeps operation)) items =
      items.filter fun item =>
        operations.all fun operation => keeps operation item := by
  induction operations generalizing items with
  | nil => simp
  | cons operation rest ih =>
      rw [foldl_cons, ih, filter_filter]
      congr 1
      funext item
      rw [all_cons, Bool.and_comm]

end Foundation
