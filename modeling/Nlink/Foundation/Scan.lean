import Mathlib.Data.List.Basic
import Mathlib.Data.List.Chain

namespace Foundation

/-!
# Loops that an item can end

A loop carries a state over a list of items.  An item lets it go on, ends it
with the state, or makes it fail.  Where items arrive in chunks, the loop over
each chunk in turn is the loop over all items.
-/

/-- How far a loop has come. -/
inductive Scan (ε σ : Type) where
  | running (state : σ)
  | finished (state : σ)
  | failed (error : ε)

namespace Scan

/-- The loop, one step for each item. -/
def through (step : σ → ι → Scan ε σ) : σ → List ι → Scan ε σ
  | state, [] => .running state
  | state, item :: rest =>
      match step state item with
      | .running state => through step state rest
      | .finished state => .finished state
      | .failed error => .failed error

theorem through_append (step : σ → ι → Scan ε σ) (state : σ) (first second : List ι) :
    through step state (first ++ second) =
      match through step state first with
      | .running state => through step state second
      | .finished state => .finished state
      | .failed error => .failed error := by
  induction first generalizing state with
  | nil => rfl
  | cons item rest ih =>
      rw [List.cons_append, through, through]
      cases step state item with
      | running state => exact ih state
      | finished state => rfl
      | failed error => rfl

/-- What each item does to the loop, whatever the state. -/
structure Decides (step : σ → ι → Scan ε σ) (ends fails : ι → Prop) : Prop where
  onFailure : ∀ state item, fails item → ∃ error, step state item = .failed error
  onEnd : ∀ state item, ¬ fails item → ends item → ∃ result, step state item = .finished result
  onOther : ∀ state item, ¬ fails item → ¬ ends item → ∃ next, step state item = .running next

theorem Decides.finishes_iff {step : σ → ι → Scan ε σ} {ends fails : ι → Prop}
    (decides : Decides step ends fails) {items : List ι}
    (endsLast : items.Pairwise fun first later => ends first → ¬ fails later) (state : σ) :
    (∃ result, through step state items = .finished result) ↔
      (∃ item ∈ items, ends item) ∧ ∀ item ∈ items, ¬ fails item := by
  induction items generalizing state with
  | nil => simp [through]
  | cons item rest ih =>
      obtain ⟨behind, restLast⟩ := List.pairwise_cons.mp endsLast
      rw [through]
      simp only [List.exists_mem_cons_iff, List.forall_mem_cons]
      by_cases isFailure : fails item
      · obtain ⟨error, failed⟩ := decides.onFailure state item isFailure
        simp [failed, isFailure]
      · by_cases isEnd : ends item
        · obtain ⟨result, finished⟩ := decides.onEnd state item isFailure isEnd
          have later : ∀ other ∈ rest, ¬ fails other :=
            fun other member => behind other member isEnd
          simpa [finished, isFailure, isEnd] using later
        · obtain ⟨next, goesOn⟩ := decides.onOther state item isFailure isEnd
          rw [goesOn]
          simp only [isFailure, isEnd, false_or, not_false_eq_true, true_and]
          exact ih restLast next

end Scan

/-!
## Runs of consecutive keys

A list of labelled keys is grouped into runs of consecutive keys with one
label.  Expanding the runs gives the list back, and no two neighbouring runs
could be joined.
-/

/-- Consecutive keys with one label. -/
structure Run (α : Type) where
  first : Nat
  last : Nat
  label : α
  ordered : first ≤ last

namespace Run

def single (key : Nat) (label : α) : Run α where
  first := key
  last := key
  label := label
  ordered := Nat.le_refl key

/-- A run that begins one key earlier. -/
def extend (run : Run α) (key : Nat) (touches : key + 1 = run.first) : Run α where
  first := key
  last := run.last
  label := run.label
  ordered := Nat.le_trans (Nat.le_of_succ_le (Nat.le_of_eq touches)) run.ordered

/-- The keys from one to another, both included. -/
def keysBetween (first last : Nat) : List Nat :=
  List.range' first (last + 1 - first)

/-- The labelled keys of a run. -/
def entries (run : Run α) : List (Nat × α) :=
  (keysBetween run.first run.last).map fun key => (key, run.label)

theorem entries_single (key : Nat) (label : α) : (single key label).entries = [(key, label)] := by
  simp [entries, single, keysBetween]

theorem entries_extend (run : Run α) (key : Nat) (touches : key + 1 = run.first) :
    (run.extend key touches).entries = (key, run.label) :: run.entries := by
  have longer : run.last + 1 - key = (run.last + 1 - run.first) + 1 := by
    have ordered := run.ordered
    omega
  rw [entries, extend, keysBetween, longer, List.range'_succ, touches]
  rfl

end Run

variable {α : Type} [DecidableEq α]

/-- Put a key in front of runs. -/
def consRun (key : Nat) (label : α) : List (Run α) → List (Run α)
  | [] => [.single key label]
  | run :: rest =>
      if joins : key + 1 = run.first ∧ label = run.label then
        run.extend key joins.1 :: rest
      else
        .single key label :: run :: rest

/-- Group labelled keys into runs. -/
def runs : List (Nat × α) → List (Run α)
  | [] => []
  | (key, label) :: rest => consRun key label (runs rest)

theorem entries_consRun (key : Nat) (label : α) (grouped : List (Run α)) :
    (consRun key label grouped).flatMap Run.entries =
      (key, label) :: grouped.flatMap Run.entries := by
  cases grouped with
  | nil => simp [consRun, Run.entries_single]
  | cons run rest =>
      rw [consRun]
      split
      · rename_i joins
        rw [List.flatMap_cons, Run.entries_extend, ← joins.2]
        rfl
      · rw [List.flatMap_cons, Run.entries_single]
        rfl

theorem entries_runs (entries : List (Nat × α)) : (runs entries).flatMap Run.entries = entries := by
  induction entries with
  | nil => rfl
  | cons entry rest ih => rw [runs, entries_consRun, ih]

theorem mem_of_mem_runs {entries : List (Nat × α)} {run : Run α} (member : run ∈ runs entries) :
    (run.first, run.label) ∈ entries ∧ (run.last, run.label) ∈ entries := by
  have within : ∀ entry ∈ run.entries, entry ∈ entries := by
    intro entry inRun
    rw [← entries_runs entries]
    exact List.mem_flatMap_of_mem member inRun
  have ordered := run.ordered
  constructor
  all_goals
    apply within
    simp [Run.entries, Run.keysBetween]
    omega

end Foundation
