import Nlink.Foundation.Execution
import Mathlib.Logic.Function.Basic

namespace Foundation

/-!
# Events that change one cell each

A table has a cell for each key, and an event changes the cell of its key.  What a
cell becomes, and whether each event meets a condition on the cell that it finds,
depends on the events of that cell only.
-/

/-- Conditions along actions that follow others. -/
theorem allAlong_append {next : σ → α → σ} {condition : σ → α → Prop} {state : σ}
    {first later : List α} :
    AllAlong next condition state (first ++ later) ↔
      AllAlong next condition state first ∧ AllAlong next condition (first.foldl next state) later := by
  induction first generalizing state with
  | nil => exact (and_iff_right trivial).symm
  | cons action rest ih => rw [List.cons_append, AllAlong, AllAlong, List.foldl_cons, ih, and_assoc]

variable {ε κ α : Type} [DecidableEq κ] (keyOf : ε → κ) (act : ε → α → α)

/-- An event changes the cell of its key. -/
def touch (cells : κ → α) (event : ε) : κ → α :=
  Function.update cells (keyOf event) (act event (cells (keyOf event)))

variable {keyOf act}

theorem touch_own (cells : κ → α) (event : ε) :
    touch keyOf act cells event (keyOf event) = act event (cells (keyOf event)) :=
  Function.update_self ..

theorem touch_other {cells : κ → α} {event : ε} {key : κ} (other : keyOf event ≠ key) :
    touch keyOf act cells event key = cells key :=
  Function.update_of_ne (Ne.symm other) ..

/-- A cell becomes what its own events make of it. -/
theorem foldl_touch (events : List ε) (cells : κ → α) (key : κ) :
    events.foldl (touch keyOf act) cells key =
      (events.filter (keyOf · = key)).foldl (fun value event => act event value) (cells key) := by
  induction events generalizing cells with
  | nil => rfl
  | cons event rest ih =>
      rw [List.foldl_cons, ih]
      by_cases own : keyOf event = key
      · rw [List.filter_cons_of_pos (by simpa using own), List.foldl_cons, ← own, touch_own]
      · rw [List.filter_cons_of_neg (by simpa using own), touch_other own]

/-- Each event meets a condition on its cell, if each cell's events do in turn. -/
theorem allAlong_touch_iff {condition : α → ε → Prop} {events : List ε} {cells : κ → α} :
    AllAlong (touch keyOf act) (fun cells event => condition (cells (keyOf event)) event) cells
        events ↔
      ∀ key, AllAlong (fun value event => act event value) condition (cells key)
        (events.filter (keyOf · = key)) := by
  induction events generalizing cells with
  | nil => exact iff_of_true trivial fun _ => trivial
  | cons event rest ih =>
      rw [AllAlong, ih]
      have cell : ∀ key, (keyOf event = key →
          AllAlong (fun value event => act event value) condition (cells key)
            ((event :: rest).filter (keyOf · = key)) =
          (condition (cells key) event ∧ AllAlong (fun value event => act event value) condition
            (touch keyOf act cells event key) (rest.filter (keyOf · = key)))) ∧
          (keyOf event ≠ key →
          AllAlong (fun value event => act event value) condition (cells key)
            ((event :: rest).filter (keyOf · = key)) =
          AllAlong (fun value event => act event value) condition
            (touch keyOf act cells event key) (rest.filter (keyOf · = key))) := by
        intro key
        constructor
        · rintro rfl
          rw [List.filter_cons_of_pos (by simp), AllAlong, touch_own]
        · intro other
          rw [List.filter_cons_of_neg (by simpa using other), touch_other other]
      constructor
      · rintro ⟨here, later⟩ key
        by_cases own : keyOf event = key
        · rw [(cell key).1 own]
          exact ⟨own ▸ here, later key⟩
        · rw [(cell key).2 own]
          exact later key
      · intro all
        refine ⟨?_, fun key => ?_⟩
        · have own := all (keyOf event)
          rw [(cell (keyOf event)).1 rfl] at own
          exact own.1
        · have each := all key
          by_cases own : keyOf event = key
          · rw [(cell key).1 own] at each
            exact each.2
          · rwa [(cell key).2 own] at each

end Foundation
