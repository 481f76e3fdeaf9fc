import Mathlib.Data.List.Basic

namespace Foundation

/-!
# Streams that are polled

A stream is a state with a poll function: a poll yields an item, says that the
stream has ended, or that nothing is there yet.  A list that every poll shortens
by what it yields is what the stream yields, whenever it is polled.
-/

/-- The result of a poll. -/
inductive Poll (ι : Type u) where
  | pending
  | ready (value : ι)

variable {σ : Type u} {ι : Type v}

/-- The results of a number of polls, and the state after them. -/
def polls (pollNext : σ → Poll (Option ι) × σ) : Nat → σ → List (Poll (Option ι)) × σ
  | 0, state => ([], state)
  | count + 1, state =>
      let (result, next) := pollNext state
      let (results, last) := polls pollNext count next
      (result :: results, last)

/-- The items among the results of polls. -/
def yielded (results : List (Poll (Option ι))) : List ι :=
  results.filterMap fun result =>
    match result with
    | .ready item => item
    | .pending => none

/-- A state in which a stream has ended for good. -/
def Fused (pollNext : σ → Poll (Option ι) × σ) (state : σ) : Prop :=
  ∀ count, ∀ result ∈ (polls pollNext count state).1, result = .ready none

/-- What one poll does to the items due, to the end due after them, and to the
number of polls that all this takes at most: it yields the first item, leaves
them all, or finds none left and ends the stream. -/
def Advances (pollNext : σ → Poll (Option ι) × σ) (due : σ → List ι)
    (ends : σ → Bool) (measure : σ → Nat) (items : List ι) (isEnd : Bool)
    (bound : Nat) : Poll (Option ι) × σ → Prop
  | (.ready (some item), next) =>
      items = item :: due next ∧ isEnd = ends next ∧ measure next < bound
  | (.pending, next) =>
      items = due next ∧ isEnd = ends next ∧ (measure next < bound ∨ items = [] ∧ isEnd = false)
  | (.ready none, next) => items = [] ∧ due next = [] ∧ isEnd = true ∧ Fused pollNext next

/-- What a stream still yields, whether it then ends, and how long both take at
most. -/
structure Yields (pollNext : σ → Poll (Option ι) × σ) (due : σ → List ι)
    (ends : σ → Bool) (measure : σ → Nat) : Prop where
  advances : ∀ state, Advances pollNext due ends measure (due state)
    (ends state) (measure state) (pollNext state)

/-- From a state on, a stream yields these items, no more and none twice, and
ends after them or never. -/
structure YieldsExactly (pollNext : σ → Poll (Option ι) × σ) (state : σ)
    (items : List ι) (ends : Bool) : Prop where
  inOrder : ∀ count, yielded (polls pollNext count state).1 <+: items
  all : ∃ count, yielded (polls pollNext count state).1 = items
  ended : ends = true ↔ ∃ count, .ready none ∈ (polls pollNext count state).1
  afterAll : ∀ count, .ready none ∈ (polls pollNext count state).1 →
    yielded (polls pollNext count state).1 = items
  fused : ∀ count, .ready none ∈ (polls pollNext count state).1 →
    Fused pollNext (polls pollNext count state).2

variable {pollNext : σ → Poll (Option ι) × σ}

theorem polls_succ (count : Nat) {state next : σ} {result : Poll (Option ι)}
    (polled : pollNext state = (result, next)) :
    polls pollNext (count + 1) state =
      (result :: (polls pollNext count next).1, (polls pollNext count next).2) := by
  rw [polls, polled]

variable {state : σ}

theorem fused_of_fixed (fixed : pollNext state = (.ready none, state)) : Fused pollNext state := by
  intro count
  induction count with
  | zero =>
      intro result member
      cases member
  | succ count ih =>
      rw [polls_succ count fixed]
      intro result member
      rcases List.mem_cons.mp member with rfl | member
      · rfl
      · exact ih result member

theorem polls_preserve {invariant : σ → Prop}
    (preserved : ∀ state, invariant state → invariant (pollNext state).2) (count : Nat)
    (start : invariant state) : invariant (polls pollNext count state).2 := by
  induction count generalizing state with
  | zero => exact start
  | succ count ih =>
      rcases polled : pollNext state with ⟨result, next⟩
      rw [polls_succ count polled]
      have kept := preserved state start
      rw [polled] at kept
      exact ih kept

theorem polls_succ_last (count : Nat) (state : σ) : polls pollNext (count + 1) state =
      ((polls pollNext count state).1 ++ [(pollNext (polls pollNext count state).2).1],
        (pollNext (polls pollNext count state).2).2) := by
  induction count generalizing state with
  | zero => rfl
  | succ count ih =>
      rcases polled : pollNext state with ⟨result, next⟩
      rw [polls_succ (count + 1) polled, polls_succ count polled, ih next]
      rfl

theorem polls_track (invariant : List ι → σ → Prop)
    (preserved : ∀ items state, invariant items state →
      invariant (items ++ yielded [(pollNext state).1]) (pollNext state).2)
    (count : Nat) (start : invariant [] state) :
    invariant (yielded (polls pollNext count state).1) (polls pollNext count state).2 := by
  induction count with
  | zero => exact start
  | succ count ih =>
      rw [polls_succ_last, yielded, List.filterMap_append]
      exact preserved _ _ ih

theorem Fused.next {state next : σ} {result : Poll (Option ι)} (fused : Fused pollNext state)
    (polled : pollNext state = (result, next)) : Fused pollNext next := by
  intro count other member
  refine fused (count + 1) other ?_
  rw [polls_succ count polled]
  exact List.mem_cons_of_mem _ member

theorem Fused.polls (fused : Fused pollNext state) (count : Nat) :
    Fused pollNext (polls pollNext count state).2 := by
  refine polls_preserve ?_ count fused
  intro state fused
  exact fused.next rfl

theorem Advances.mono {due : σ → List ι} {ends : σ → Bool} {measure : σ → Nat} {items : List ι}
    {isEnd : Bool} {bound larger : Nat} {polled : Poll (Option ι) × σ}
    (advances : Advances pollNext due ends measure items isEnd bound polled) (le : bound ≤ larger) :
    Advances pollNext due ends measure items isEnd larger polled := by
  obtain ⟨result, next⟩ := polled
  rcases result with _ | _ | item
  · obtain ⟨same, sameEnd, progress⟩ := advances
    exact ⟨same, sameEnd, progress.imp_left fun smaller => Nat.lt_of_lt_of_le smaller le⟩
  · exact advances
  · obtain ⟨more, sameEnd, smaller⟩ := advances
    exact ⟨more, sameEnd, Nat.lt_of_lt_of_le smaller le⟩

namespace Yields

variable {due : σ → List ι} {ends : σ → Bool} {measure : σ → Nat}

variable {state next : σ}

section

variable (yields : Yields pollNext due ends measure)

include yields

theorem item {item : ι} (polled : pollNext state = (.ready (some item), next)) :
    due state = item :: due next ∧ ends state = ends next ∧ measure next < measure state := by
  have advances := yields.advances state
  rw [polled] at advances
  exact advances

theorem pending
    (polled : pollNext state = (.pending, next)) :
    due state = due next ∧ ends state = ends next ∧
      (measure next < measure state ∨ due state = [] ∧ ends state = false) := by
  have advances := yields.advances state
  rw [polled] at advances
  exact advances

theorem finished
    (polled : pollNext state = (.ready none, next)) :
    due state = [] ∧ due next = [] ∧ ends state = true ∧ Fused pollNext next := by
  have advances := yields.advances state
  rw [polled] at advances
  exact advances

theorem yielded_append_due (count : Nat) (state : σ) :
    yielded (polls pollNext count state).1 ++ due (polls pollNext count state).2 = due state := by
  induction count generalizing state with
  | zero => rfl
  | succ count ih =>
      rcases polled : pollNext state with ⟨result, next⟩
      rw [polls_succ count polled]
      cases result with
      | pending =>
          rw [(yields.pending polled).1]
          exact ih next
      | ready item =>
          cases item with
          | none =>
              obtain ⟨nothing, nothingNext, _⟩ := yields.finished polled
              rw [nothing, ← nothingNext]
              exact ih next
          | some item =>
              rw [(yields.item polled).1]
              exact congrArg (item :: ·) (ih next)

theorem exists_polls (state : σ) : ∃ count,
      yielded (polls pollNext count state).1 = due state ∧
        (ends state = true → .ready none ∈ (polls pollNext count state).1) := by
  generalize bound : measure state = size
  induction size using Nat.strongRecOn generalizing state with
  | ind size ih =>
      rcases polled : pollNext state with ⟨result, next⟩
      cases result with
      | pending =>
          obtain ⟨same, sameEnd, smaller | ⟨nothing, endless⟩⟩ := yields.pending polled
          · obtain ⟨count, all, ended⟩ := ih _ (bound ▸ smaller) next rfl
            refine ⟨count + 1, ?_⟩
            rw [polls_succ count polled, same, sameEnd]
            exact ⟨all, fun isEnd => List.mem_cons_of_mem _ (ended isEnd)⟩
          · exact ⟨0, nothing.symm, fun isEnd => by simp [endless] at isEnd⟩
      | ready item =>
          cases item with
          | none =>
              obtain ⟨nothing, _⟩ := yields.finished polled
              refine ⟨1, ?_⟩
              rw [polls_succ 0 polled]
              exact ⟨nothing.symm, fun _ => List.mem_cons_self ..⟩
          | some item =>
              obtain ⟨more, sameEnd, smaller⟩ := yields.item polled
              obtain ⟨count, all, ended⟩ := ih _ (bound ▸ smaller) next rfl
              refine ⟨count + 1, ?_⟩
              rw [polls_succ count polled, more, sameEnd]
              exact ⟨congrArg (item :: ·) all, fun isEnd => List.mem_cons_of_mem _ (ended isEnd)⟩

theorem of_finished (count : Nat) (state : σ)
    (finished : .ready none ∈ (polls pollNext count state).1) :
    ends state = true ∧ due (polls pollNext count state).2 = [] ∧
      Fused pollNext (polls pollNext count state).2 := by
  induction count generalizing state with
  | zero => cases finished
  | succ count ih =>
      rcases polled : pollNext state with ⟨result, next⟩
      rw [polls_succ count polled] at finished ⊢
      cases result with
      | pending =>
          obtain ⟨_, sameEnd, _⟩ := yields.pending polled
          rw [sameEnd]
          refine ih next ?_
          simpa using finished
      | ready item =>
          cases item with
          | none =>
              obtain ⟨_, nothing, isEnd, fused⟩ := yields.finished polled
              have rest := yields.yielded_append_due count next
              rw [nothing, List.append_eq_nil_iff] at rest
              exact ⟨isEnd, rest.2, fused.polls count⟩
          | some item =>
              obtain ⟨_, sameEnd, _⟩ := yields.item polled
              rw [sameEnd]
              refine ih next ?_
              simpa using finished

/-- A stream that advances at each poll yields what is due, in order. -/
theorem yieldsExactly (state : σ) :
    YieldsExactly pollNext state (due state) (ends state) where
  inOrder := fun count => ⟨_, yields.yielded_append_due count state⟩
  all := by
    obtain ⟨count, all, _⟩ := yields.exists_polls state
    exact ⟨count, all⟩
  ended := by
    constructor
    · intro isEnd
      obtain ⟨count, _, ended⟩ := yields.exists_polls state
      exact ⟨count, ended isEnd⟩
    · rintro ⟨count, finished⟩
      exact (yields.of_finished count state finished).1
  afterAll := by
    intro count finished
    have nothing := (yields.of_finished count state finished).2.1
    rw [← yields.yielded_append_due count state, nothing, List.append_nil]
  fused := fun count finished => (yields.of_finished count state finished).2.2

end

end Yields

theorem YieldsExactly.unique {first second : List ι} {firstEnds secondEnds : Bool}
    (yieldsFirst : YieldsExactly pollNext state first firstEnds)
    (yieldsSecond : YieldsExactly pollNext state second secondEnds) : first = second := by
  obtain ⟨firstCount, isFirst⟩ := yieldsFirst.all
  obtain ⟨secondCount, isSecond⟩ := yieldsSecond.all
  have forth : first <+: second := isFirst ▸ yieldsSecond.inOrder firstCount
  have back : second <+: first := isSecond ▸ yieldsFirst.inOrder secondCount
  exact forth.eq_of_length (Nat.le_antisymm forth.length_le back.length_le)

/-- The poll function of a script: the results of the polls to come.  A script
that has ended stays at its end, and one that has run out yields nothing. -/
def pollScript : List (Poll (Option ι)) → Poll (Option ι) × List (Poll (Option ι))
  | [] => (.pending, [])
  | .ready none :: rest => (.ready none, .ready none :: rest)
  | result :: rest => (result, rest)

/-- The items of a script before its end. -/
def scriptItems : List (Poll (Option ι)) → List ι
  | [] => []
  | .pending :: rest => scriptItems rest
  | .ready none :: _ => []
  | .ready (some item) :: rest => item :: scriptItems rest

def scriptEnds (script : List (Poll (Option ι))) : Bool :=
  script.any fun result =>
    match result with
    | .ready none => true
    | _ => false

theorem yields_pollScript : Yields (pollScript : List (Poll (Option ι)) → _) scriptItems scriptEnds
      List.length where
  advances := by
    intro script
    cases script with
    | nil => exact ⟨rfl, rfl, Or.inr ⟨rfl, rfl⟩⟩
    | cons result rest =>
        rcases result with _ | _ | item
        · exact ⟨rfl, rfl, Or.inl (Nat.lt_succ_self _)⟩
        · exact ⟨rfl, rfl, rfl, fused_of_fixed rfl⟩
        · exact ⟨rfl, rfl, Nat.lt_succ_self _⟩

end Foundation
