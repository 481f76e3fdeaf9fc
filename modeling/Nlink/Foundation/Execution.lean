import Mathlib.Data.List.Basic

namespace Foundation

/-!
# Executions of a step function

A step function takes a state and an action to the next state, or refuses the
action.  An execution records the state after each action.  A property that
holds after a step exactly when the step meets a condition holds all along an
execution exactly when every step meets it.
-/

/-- Run a list of actions; a refused action ends the run without a result. -/
def run? (step? : σ → α → Option σ) : σ → List α → Option σ
  | state, [] => some state
  | state, action :: rest =>
      match step? state action with
      | none => none
      | some next => run? step? next rest

/-- An execution, as the actions taken and the state after each. -/
inductive Execution (step? : σ → α → Option σ) : σ → List (α × σ) → Prop
  | nil (state : σ) : Execution step? state []
  | cons {state next : σ} {action : α} {rest : List (α × σ)}
      (first : step? state action = some next) (later : Execution step? next rest) :
      Execution step? state ((action, next) :: rest)

namespace Execution

/-- Every step of an execution meets a condition on its action and the state
before it. -/
def Guarded (condition : σ → α → Prop) : σ → List (α × σ) → Prop
  | _, [] => True
  | state, (action, next) :: rest => condition state action ∧ Guarded condition next rest

/-- A property holds in the first state and after every step. -/
def Always (property : σ → Prop) (state : σ) (steps : List (α × σ)) : Prop :=
  property state ∧ ∀ step ∈ steps, property step.2

theorem always_nil (property : σ → Prop) (state : σ) :
    Always property state ([] : List (α × σ)) ↔ property state := by
  simp [Always]

theorem always_cons (property : σ → Prop) (state next : σ) (action : α) (rest : List (α × σ)) :
    Always property state ((action, next) :: rest) ↔
      property state ∧ Always property next rest := by
  simp [Always]

/-- Every step of an execution relates the states before and after it. -/
def EachStep (relation : σ → α → σ → Prop) : σ → List (α × σ) → Prop
  | _, [] => True
  | state, (action, next) :: rest => relation state action next ∧ EachStep relation next rest

/-- The state that an execution reaches. -/
def final : σ → List (α × σ) → σ
  | state, [] => state
  | _, (_, next) :: rest => final next rest

/-- What the steps of an execution contribute, in their order. -/
def contributions (contribution : σ → α → List γ) : σ → List (α × σ) → List γ
  | _, [] => []
  | state, (action, next) :: rest =>
      contribution state action ++ contributions contribution next rest

variable {state : σ} {steps : List (α × σ)} {invariant : σ → Prop} {step? : σ → α → Option σ}

/-- What each step preserves holds along the run. -/
theorem always_of_preserved
    (preserved : ∀ state action next,
      invariant state → step? state action = some next → invariant next)
    (execution : Execution step? state steps)
    (start : invariant state) : Always invariant state steps := by
  induction execution with
  | nil state => exact (always_nil invariant state).mpr start
  | cons first _ ih => exact (always_cons ..).mpr ⟨start, ih (preserved _ _ _ start first)⟩

theorem guarded_true (state : σ) (steps : List (α × σ)) :
    Guarded (fun _ _ => True) state steps := by
  induction steps generalizing state with
  | nil => trivial
  | cons step rest ih => exact ⟨trivial, ih step.2⟩

variable {condition : σ → α → Prop}

/-- A property holds along a run exactly when each step meets its condition. -/
theorem always_iff_guarded {invariant property : σ → Prop} (preserved : ∀ state action next,
      invariant state → step? state action = some next → invariant next)
    (exactly : ∀ state action next, invariant state → property state →
      step? state action = some next → (property next ↔ condition state action))
    (execution : Execution step? state steps)
    (start : invariant state) (holds : property state) :
    Always property state steps ↔ Guarded condition state steps := by
  induction execution with
  | nil state => simp [always_nil, Guarded, holds]
  | @cons state next action rest first later ih =>
      rw [always_cons, Guarded]
      have step := exactly state action next start holds first
      constructor
      · rintro ⟨_, along⟩
        have nextHolds : property next := along.1
        exact ⟨step.mp nextHolds, (ih (preserved _ _ _ start first) nextHolds).mp along⟩
      · rintro ⟨met, guarded⟩
        have nextHolds : property next := step.mpr met
        exact ⟨holds, (ih (preserved _ _ _ start first) nextHolds).mpr guarded⟩

/-- Along a run that keeps an invariant, what follows from it holds of each step. -/
theorem eachStep_of_preserved
    {relation : σ → α → σ → Prop}
    (preserved : ∀ state action next, invariant state → condition state action →
        step? state action = some next → invariant next)
    (related : ∀ state action next, invariant state → condition state action →
        step? state action = some next → relation state action next)
    (execution : Execution step? state steps)
    (guarded : Guarded condition state steps) (start : invariant state) :
    Always invariant state steps ∧ EachStep relation state steps := by
  induction execution with
  | nil state => exact ⟨(always_nil invariant state).mpr start, trivial⟩
  | cons first _ ih =>
      obtain ⟨met, guardedLater⟩ := guarded
      obtain ⟨along, each⟩ := ih guardedLater (preserved _ _ _ start met first)
      exact ⟨(always_cons ..).mpr ⟨start, along⟩, related _ _ _ start met first, each⟩

/-- A relation holds of each step exactly when each meets its condition. -/
theorem eachStep_iff_guarded
    {guard condition : σ → α → Prop} {relation : σ → α → σ → Prop}
    (preserved : ∀ state action next, invariant state → guard state action →
        step? state action = some next → invariant next)
    (exactly : ∀ state action next, invariant state → step? state action = some next →
        (relation state action next ↔ condition state action))
    (execution : Execution step? state steps)
    (guarded : Guarded guard state steps) (start : invariant state) :
    EachStep relation state steps ↔ Guarded condition state steps := by
  induction execution with
  | nil state => exact Iff.rfl
  | cons first _ ih =>
      exact and_congr (exactly _ _ _ start first)
        (ih guarded.2 (preserved _ _ _ start guarded.1 first))

theorem log_final {contribution : σ → α → List γ} (log : σ → List γ)
    (appends : EachStep (fun state action next => log next = log state ++ contribution state action)
      state steps) :
    log (final state steps) = log state ++ contributions contribution state steps := by
  induction steps generalizing state with
  | nil => simp [final, contributions]
  | cons step rest ih =>
      obtain ⟨action, next⟩ := step
      obtain ⟨first, later⟩ := appends
      rw [final, contributions, ih later, first, List.append_assoc]

theorem EachStep.mono {relation weaker : σ → α → σ → Prop}
    (weakens : ∀ state action next, relation state action next → weaker state action next)
    (each : EachStep relation state steps) : EachStep weaker state steps := by
  induction steps generalizing state with
  | nil => trivial
  | cons step rest ih =>
      obtain ⟨action, next⟩ := step
      exact ⟨weakens _ _ _ each.1, ih each.2⟩

/-- What always holds guards each step. -/
theorem Always.guarded {property : σ → Prop} (execution : Execution step? state steps)
    (implies : ∀ state action next, property state → step? state action = some next →
        condition state action)
    (always : Always property state steps) : Guarded condition state steps := by
  induction execution with
  | nil state => trivial
  | cons first _ ih =>
      obtain ⟨here, later⟩ := (always_cons ..).mp always
      exact ⟨implies _ _ _ here first, ih later⟩

/-- What always holds holds at the end. -/
theorem Always.final {property : σ → Prop}
    (always : Always property state steps) : property (Execution.final state steps) := by
  induction steps generalizing state with
  | nil => exact always.1
  | cons step rest ih =>
      obtain ⟨action, next⟩ := step
      exact ih ((always_cons ..).mp always).2

theorem Always.mono {property weaker : σ → Prop} (weakens : ∀ state, property state → weaker state)
    (always : Always property state steps) : Always weaker state steps :=
  ⟨weakens _ always.1, fun step member => weakens _ (always.2 step member)⟩

end Execution

/-- Where no action is refused: each meets a condition at the state that it
finds. -/
def AllAlong (next : σ → α → σ) (condition : σ → α → Prop) : σ → List α → Prop
  | _, [] => True
  | state, action :: rest =>
      condition state action ∧ AllAlong next condition (next state action) rest

theorem AllAlong.imp {next : σ → α → σ} {condition other : σ → α → Prop}
    (implies : ∀ state action, condition state action → other state action) {state : σ}
    {actions : List α} (all : AllAlong next condition state actions) :
    AllAlong next other state actions := by
  induction actions generalizing state with
  | nil => trivial
  | cons action rest ih => exact ⟨implies state action all.1, ih all.2⟩

theorem allAlong_congr {next : σ → α → σ} {condition other : σ → α → Prop}
    (same : ∀ state action, condition state action ↔ other state action) (state : σ)
    (actions : List α) :
    AllAlong next condition state actions ↔ AllAlong next other state actions :=
  ⟨.imp fun state action => (same state action).mp,
    .imp fun state action => (same state action).mpr⟩

end Foundation
