import Mathlib.Data.List.Basic

namespace Foundation

/-!
# Programs that change a state and can fail

A program runs from a state and ends with a value and a state, or with an
error.  A run over a list succeeds when the program of each item succeeds from
the state in which that of the item before it ended.
-/

variable {ε σ α β ι τ : Type}

/-- The program, if the condition holds. -/
def onlyIf (condition : Bool) (program : EStateM ε σ Unit) : EStateM ε σ Unit :=
  if condition then program else pure ()

/-- The program for a value, if there is one. -/
def forSome (value : Option α) (program : α → EStateM ε σ Unit) : EStateM ε σ Unit :=
  match value with
  | some given => program given
  | none => pure ()

/-- The program ends with a value and not with an error. -/
def Succeeds (program : EStateM ε σ α) (before : σ) (value : α) (after : σ) : Prop :=
  program before = .ok value after

theorem exists_of_isOk {result : Except ε α} (succeeds : result.isOk = true) :
    ∃ value, result = .ok value := by
  cases result with
  | error error => cases succeeds
  | ok value => exact ⟨value, rfl⟩

/-- A sequence is fine exactly when both its parts are. -/
theorem bind_eq_ok_iff {program : Except ε α} {next : α → Except ε β} {value : β} :
    program >>= next = .ok value ↔ ∃ middle, program = .ok middle ∧ next middle = .ok value := by
  cases program with
  | error error =>
      constructor
      · intro failed
        cases failed
      · rintro ⟨_, failed, _⟩
        cases failed
  | ok middle =>
      constructor
      · intro succeeded
        exact ⟨middle, rfl, succeeded⟩
      · rintro ⟨_, same, succeeded⟩
        cases same
        exact succeeded

section

variable {before after : σ}

theorem succeeds_pure {value result : α} :
    Succeeds (pure value : EStateM ε σ α) before result after ↔
      value = result ∧ before = after := by
  rw [Succeeds]
  change EStateM.Result.ok value before = .ok result after ↔ _
  rw [EStateM.Result.ok.injEq]

/-- A sequence succeeds through a state between its parts. -/
theorem succeeds_bind {program : EStateM ε σ α} {next : α → EStateM ε σ β} {value : β} :
    Succeeds (program >>= next) before value after ↔
      ∃ middle between, Succeeds program before middle between ∧
        Succeeds (next middle) between value after := by
  rw [Succeeds]
  change EStateM.bind program next before = _ ↔ _
  rw [EStateM.bind]
  cases run : program before with
  | ok middle between =>
      constructor
      · intro rest
        exact ⟨middle, between, run, rest⟩
      · rintro ⟨other, otherBetween, first, rest⟩
        rw [Succeeds, run] at first
        cases first
        exact rest
  | error error between =>
      constructor
      · intro impossible
        cases impossible
      · rintro ⟨other, otherBetween, first, _⟩
        rw [Succeeds, run] at first
        cases first

/-- A program succeeds when both its parts do, one after the other. -/
theorem Succeeds.bind {program : EStateM ε σ α} {next : α → EStateM ε σ β} {between : σ}
    {middle : α} {value : β} (first : Succeeds program before middle between)
    (rest : Succeeds (next middle) between value after) :
    Succeeds (program >>= next) before value after :=
  succeeds_bind.mpr ⟨middle, between, first, rest⟩

/-- Behind a first part that succeeds, the rest decides. -/
theorem Succeeds.rest_iff {program : EStateM ε σ α} {next : α → EStateM ε σ β} {between : σ}
    {middle : α} {value : β} (first : Succeeds program before middle between) :
    Succeeds (program >>= next) before value after ↔
      Succeeds (next middle) between value after := by
  refine ⟨fun whole => ?_, first.bind⟩
  obtain ⟨other, otherBetween, otherFirst, rest⟩ := succeeds_bind.mp whole
  cases first.symm.trans otherFirst
  exact rest

/-- The program ends with some value. -/
def Ends (program : EStateM ε σ α) (before after : σ) : Prop :=
  ∃ value, Succeeds program before value after

theorem Ends.unique {program : EStateM ε σ α} {other : σ} (first : Ends program before after)
    (second : Ends program before other) : after = other := by
  obtain ⟨value, first⟩ := first
  obtain ⟨otherValue, second⟩ := second
  have same := first.symm.trans second
  rw [EStateM.Result.ok.injEq] at same
  exact same.2

theorem Ends.bind {program : EStateM ε σ α} {next : α → EStateM ε σ β} {between : σ}
    (first : Ends program before between) (rest : ∀ value, Ends (next value) between after) :
    Ends (program >>= next) before after := by
  obtain ⟨middle, first⟩ := first
  obtain ⟨value, rest⟩ := rest middle
  exact ⟨value, first.bind rest⟩

theorem Succeeds.bindEnds {program : EStateM ε σ α} {next : α → EStateM ε σ β} {between : σ}
    {middle : α} (first : Succeeds program before middle between)
    (rest : Ends (next middle) between after) : Ends (program >>= next) before after := by
  obtain ⟨value, rest⟩ := rest
  exact ⟨value, first.bind rest⟩

theorem Succeeds.ends {program : EStateM ε σ α} {value : α}
    (succeeds : Succeeds program before value after) : Ends program before after :=
  ⟨value, succeeds⟩

/-- A guarded program runs, or leaves the state as it is. -/
theorem succeeds_onlyIf {condition : Bool} {program : EStateM ε σ Unit} :
    Succeeds (onlyIf condition program) before () after ↔
      if condition then
        Succeeds program before () after
      else
        before = after := by
  rw [onlyIf]
  cases condition with
  | false =>
      rw [if_neg Bool.false_ne_true, succeeds_pure]
      simp
  | true =>
      rw [if_pos rfl]
      simp

theorem succeeds_forSome {value : Option α} {program : α → EStateM ε σ Unit} :
    Succeeds (forSome value program) before () after ↔
      match value with
      | some given => Succeeds (program given) before () after
      | none =>
          before = after := by
  cases value with
  | none =>
      rw [forSome, succeeds_pure]
      simp
  | some given => rw [forSome]

theorem not_succeeds_throw {error : ε} {value : α} :
    ¬ Succeeds (throw error : EStateM ε σ α) before value after := by
  intro impossible
  cases impossible

theorem succeeds_tryCatch {program : EStateM ε σ α} {handler : ε → EStateM ε σ α} {value : α} :
    Succeeds (tryCatch program handler) before value after ↔ Succeeds program before value after ∨
        ∃ error between, program before = .error error between ∧
          Succeeds (handler error) between value after := by
  rw [Succeeds]
  change EStateM.tryCatch program handler before = _ ↔ _
  rw [EStateM.tryCatch, Succeeds]
  cases run : program before with
  | ok middle between => simp
  | error error between =>
      constructor
      · intro handled
        exact Or.inr ⟨error, between, rfl, handled⟩
      · rintro (impossible | ⟨other, otherBetween, same, handled⟩)
        · cases impossible
        · cases same
          exact handled

end

/-!
## What a program leaves as it was
-/

/-- The state at the end, also after an error. -/
def stateOf : EStateM.Result ε σ α → σ
  | .ok _ state => state
  | .error _ state => state

/-- A part of the state is the same at the end. -/
def Keeps (part : σ → τ) (program : EStateM ε σ α) : Prop :=
  ∀ before, part (stateOf (program before)) = part before

namespace Keeps

variable {part : σ → τ}

theorem succeeds {program : EStateM ε σ α} (keeps : Keeps part program) {before after : σ}
    {value : α} (ends : Succeeds program before value after) : part after = part before := by
  have kept := keeps before
  rw [Succeeds] at ends
  rw [ends] at kept
  exact kept

theorem pure (value : α) : Keeps part (pure value : EStateM ε σ α) :=
  fun _ => rfl

theorem throw (error : ε) : Keeps part (throw error : EStateM ε σ α) :=
  fun _ => rfl

/-- A part is kept by a sequence that keeps it in both places. -/
theorem bind {program : EStateM ε σ α} {next : α → EStateM ε σ β} (first : Keeps part program)
    (second : ∀ value, Keeps part (next value)) : Keeps part (program >>= next) := by
  intro before
  change part (stateOf (EStateM.bind program next before)) = part before
  have kept := first before
  rw [EStateM.bind]
  cases run : program before with
  | ok value between =>
      rw [run] at kept
      exact (second value between).trans kept
  | error error between =>
      rw [run] at kept
      exact kept

theorem tryCatch {program : EStateM ε σ α} {handler : ε → EStateM ε σ α}
    (first : Keeps part program) (second : ∀ error, Keeps part (handler error)) :
    Keeps part (tryCatch program handler) := by
  intro before
  change part (stateOf (EStateM.tryCatch program handler before)) = part before
  have kept := first before
  rw [EStateM.tryCatch]
  cases run : program before with
  | ok value between =>
      rw [run] at kept
      exact kept
  | error error between =>
      rw [run] at kept
      exact (second error between).trans kept

theorem onlyIf {condition : Bool} {program : EStateM ε σ Unit} (kept : Keeps part program) :
    Keeps part (onlyIf condition program) := by
  rw [Foundation.onlyIf]
  cases condition with
  | false => exact Keeps.pure ()
  | true => exact kept

theorem forSome {value : Option α} {program : α → EStateM ε σ Unit}
    (kept : ∀ given, Keeps part (program given)) : Keeps part (forSome value program) := by
  cases value with
  | none => exact Keeps.pure ()
  | some given => exact kept given

end Keeps

/-!
## Loops of which every state is known
-/

theorem succeeds_forM_of_steps {program : ι → EStateM ε σ Unit} {items : List ι}
    (state : List ι → σ)
    (step : ∀ done item rest, items = done ++ item :: rest →
      Succeeds (program item) (state done) () (state (done ++ [item]))) :
    Succeeds (items.forM program) (state []) () (state items) := by
  suffices fromDone : ∀ rest done, items = done ++ rest →
      Succeeds (rest.forM program) (state done) () (state items) from
    fromDone items [] rfl
  intro rest
  induction rest with
  | nil =>
      intro done whole
      rw [whole, List.append_nil]
      rfl
  | cons item rest ih =>
      intro done whole
      have turn := step done item rest whole
      exact turn.bind (ih (done ++ [item])
        (by rw [whole, List.append_assoc, List.singleton_append]))

theorem succeeds_foldlM_of_steps {program : α → ι → EStateM ε σ α} {items : List ι}
    (state : List ι → σ) {Holds : List ι → α → Prop}
    (step : ∀ done item rest, items = done ++ item :: rest →
      ∀ value, Holds done value → ∃ next, Holds (done ++ [item]) next ∧
        Succeeds (program value item) (state done) next (state (done ++ [item])))
    {start : α} (holds : Holds [] start) :
    ∃ result, Holds items result ∧ Succeeds (items.foldlM program start) (state []) result
        (state items) := by
  suffices fromDone : ∀ rest done, items = done ++ rest →
      ∀ value, Holds done value → ∃ result, Holds items result ∧
        Succeeds (rest.foldlM program value) (state done) result (state items) from
    fromDone items [] rfl start holds
  intro rest
  induction rest with
  | nil =>
      intro done whole value holds
      rw [List.append_nil] at whole
      rw [← whole] at holds
      refine ⟨value, holds, ?_⟩
      rw [whole]
      rfl
  | cons item rest ih =>
      intro done whole value holds
      obtain ⟨next, nextHolds, turn⟩ := step done item rest whole value holds
      obtain ⟨result, resultHolds, ends⟩ :=
        ih (done ++ [item]) (by rw [whole, List.append_assoc, List.singleton_append]) next
          nextHolds
      exact ⟨result, resultHolds, turn.bind ends⟩

theorem ends_foldlM_of_steps {program : α → ι → EStateM ε σ α} {items : List ι} (state : List ι → σ)
    (step : ∀ done item rest, items = done ++ item :: rest → ∀ value,
      Ends (program value item) (state done) (state (done ++ [item])))
    (start : α) : Ends (items.foldlM program start) (state []) (state items) := by
  have anyStep : ∀ done item rest, items = done ++ item :: rest → ∀ value : α, True → ∃ next, True ∧
        Succeeds (program value item) (state done) next (state (done ++ [item])) := by
    intro done item rest whole value _
    obtain ⟨next, ends⟩ := step done item rest whole value
    exact ⟨next, trivial, ends⟩
  obtain ⟨result, _, ends⟩ : ∃ result, True ∧
      Succeeds (items.foldlM program start) (state []) result (state items) :=
    @succeeds_foldlM_of_steps _ _ _ _ program items state (fun _ _ => True) anyStep start trivial
  exact ⟨result, ends⟩

theorem succeeds_foldlM_of_idle {program : α → ι → EStateM ε σ α} {items : List ι} {value : α}
    {state : σ}
    (idle : ∀ item ∈ items, Succeeds (program value item) state value state) :
    Succeeds (items.foldlM program value) state value state := by
  induction items with
  | nil => rfl
  | cons item rest ih =>
      have turn := idle item List.mem_cons_self
      exact turn.bind (ih fun other member => idle other (List.mem_cons_of_mem item member))

end Foundation
