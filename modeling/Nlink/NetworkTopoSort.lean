import Mathlib.Order.WellFoundedSet
import Nlink.NetworkDiff

namespace Nlink.Network

open List

/-!
# The order of the links to create

The sort emits a link once a link of each name that it depends on is emitted,
round by round.  So a link is emitted after as many rounds as it is held back,
and within a round at its place in the list.  What the sort does not look at are
the names that come into existence as the other end of a pair, and the second
link of a name.
-/

namespace DeclaredLinkType

/-- The name of the other end of a pair. -/
def peer : DeclaredLinkType → Option String
  | .veth peer => some peer
  | .netkit peer => some peer
  | _ => none

end DeclaredLinkType

namespace DeclaredLink

/-- The interfaces that a link names: its parent or underlay device, and its
master. -/
def refersTo (link : DeclaredLink) : List String :=
  (match link.linkType with
    | .vlan parent => [parent]
    | .macvlan parent => [parent]
    | .vxlan (some dev) => [dev]
    | _ => []) ++ link.master.toList

/-- The interfaces that come into existence when a link is created. -/
def brings (link : DeclaredLink) : List String :=
  link.name :: link.linkType.peer.toList

/-- A link names an interface that another brings into existence. -/
def DependsOn (link other : DeclaredLink) : Prop :=
  ∃ name ∈ link.refersTo, name ∈ other.brings

instance (link other : DeclaredLink) : Decidable (link.DependsOn other) :=
  inferInstanceAs (Decidable (∃ name ∈ link.refersTo, name ∈ other.brings))

/-- A link depends on no link of a list. -/
def Independent (links : List DeclaredLink) (link : DeclaredLink) : Prop :=
  ∀ other ∈ links, ¬ link.DependsOn other

instance (links : List DeclaredLink) (link : DeclaredLink) : Decidable (link.Independent links) :=
  inferInstanceAs (Decidable (∀ other ∈ links, ¬ link.DependsOn other))

end DeclaredLink

/-- The dependencies within a list. -/
def Depends (links : List DeclaredLink) (link other : DeclaredLink) : Prop :=
  link ∈ links ∧ other ∈ links ∧ link.DependsOn other

/-- No link of a list depends on itself through others. -/
def Acyclic (links : List DeclaredLink) : Prop :=
  ∀ link, ¬ Relation.TransGen (Depends links) link link

/-- The rounds of the loop up to its end. -/
inductive Emits (namesInBatch : List String) :
    List DeclaredLink → List DeclaredLink → List DeclaredLink → Prop
  | done (out : List DeclaredLink) : Emits namesInBatch out [] out
  | stuck {out remaining next notReady : List DeclaredLink} (left : remaining ≠ [])
      (round : emitReady namesInBatch out remaining = (next, notReady))
      (noProgress : notReady.length = remaining.length) :
      Emits namesInBatch out remaining (next ++ notReady)
  | round {out remaining next notReady final : List DeclaredLink} (left : remaining ≠ [])
      (round : emitReady namesInBatch out remaining = (next, notReady))
      (progress : notReady.length ≠ remaining.length)
      (later : Emits namesInBatch next notReady final) :
      Emits namesInBatch out remaining final

/-- What the sort makes of a list: its loop ends, nothing is lost, independent
links keep their order, and a link comes after those that it depends on. -/
structure TopoSorted (links result : List DeclaredLink) : Prop where
  ends : links.length < 2 ∨ Emits (links.map DeclaredLink.name) [] links result
  perm : result.Perm links
  stable : result.filter (·.Independent links) = links.filter (·.Independent links)
  ordered : Acyclic links →
    result.Pairwise fun earlier later => ¬ earlier.DependsOn later

/-- The link at a position is not emitted in the first so many rounds: no link of
some name that it depends on is emitted in them, or in the last of them not
ahead of it. -/
inductive HeldBack (links : List DeclaredLink) : Nat → Nat → Prop
  | start (position : Nat) : HeldBack links 0 position
  | waits {rounds position : Nat} {link : DeclaredLink} {dep : String}
      (isLink : (link, position) ∈ links.zipIdx)
      (isDep : dep ∈ depsOf link (links.map DeclaredLink.name))
      (ahead : ∀ other named, (named, other) ∈ links.zipIdx → named.name = dep →
        other < position → HeldBack links (rounds + 1) other)
      (behind : ∀ other named, (named, other) ∈ links.zipIdx → named.name = dep →
        position ≤ other → HeldBack links rounds other) :
      HeldBack links (rounds + 1) position

/-- A link that names what another brings is held back at least as long, and
longer if it is declared ahead of it. -/
def EachInTime (links : List DeclaredLink) : Prop :=
  ∀ link position other place, (link, position) ∈ links.zipIdx → (other, place) ∈ links.zipIdx →
    link.DependsOn other →
    (∀ rounds, HeldBack links rounds place → HeldBack links rounds position) ∧
      (position < place → ∃ rounds, HeldBack links rounds position ∧ ¬ HeldBack links rounds place)

section Loop

theorem emitReady_perm (namesInBatch : List String) (out remaining : List DeclaredLink) :
    ((emitReady namesInBatch out remaining).1 ++
      (emitReady namesInBatch out remaining).2).Perm (out ++ remaining) := by
  induction remaining generalizing out with
  | nil => exact .refl _
  | cons link rest ih =>
      rw [emitReady]
      split
      · refine (ih (out ++ [link])).trans ?_
        rw [List.append_assoc, singleton_append]
      · refine perm_middle.trans ?_
        refine (List.Perm.cons link (ih out)).trans ?_
        exact perm_middle.symm

theorem emitRounds_perm (namesInBatch : List String) (fuel : Nat)
    (out remaining : List DeclaredLink) :
    (emitRounds namesInBatch fuel out remaining).Perm (out ++ remaining) := by
  induction fuel generalizing out remaining with
  | zero => exact .refl _
  | succ fuel ih =>
      rw [emitRounds]
      split
      case isTrue empty => rw [List.isEmpty_iff.mp empty, List.append_nil]
      case isFalse =>
        have round := emitReady_perm namesInBatch out remaining
        simp only
        split
        · exact round
        · exact (ih _ _).trans round

theorem topoSortLinksToAdd_perm (links : List DeclaredLink) :
    (topoSortLinksToAdd links).Perm links := by
  rw [topoSortLinksToAdd]
  split
  · exact .refl _
  · exact emitRounds_perm _ _ [] links

theorem emitReady_sublist (namesInBatch : List String) (out remaining : List DeclaredLink) :
    List.Sublist (emitReady namesInBatch out remaining).2 remaining := by
  induction remaining generalizing out with
  | nil => exact .slnil
  | cons link rest ih =>
      rw [emitReady]
      split
      · exact (ih _).cons link
      · exact (ih out).cons_cons link

theorem emits_emitRounds (namesInBatch : List String) {fuel : Nat} {out remaining : List DeclaredLink}
    (enough : remaining.length ≤ fuel) :
    Emits namesInBatch out remaining (emitRounds namesInBatch fuel out remaining) := by
  induction fuel generalizing out remaining with
  | zero =>
      have empty := eq_nil_of_length_eq_zero (Nat.le_zero.mp enough)
      subst empty
      rw [emitRounds, List.append_nil]
      exact .done out
  | succ fuel ih =>
      rw [emitRounds]
      split
      case isTrue empty =>
        rw [List.isEmpty_iff.mp empty]
        exact .done out
      case isFalse nonempty =>
        have left : remaining ≠ [] := fun empty => nonempty (List.isEmpty_iff.mpr empty)
        generalize round : emitReady namesInBatch out remaining = results
        obtain ⟨next, notReady⟩ := results
        have kept := (emitReady_sublist namesInBatch out remaining).length_le
        rw [round] at kept
        simp only at kept ⊢
        split
        · rename_i noProgress
          exact .stuck left round noProgress
        · rename_i progress
          exact .round left round progress (ih (by omega))

end Loop

section Schedule

open Classical

variable (links : List DeclaredLink)

/-- The links that are held back for so many rounds, with their positions. -/
noncomputable def pendingAfter (rounds : Nat) : List (DeclaredLink × Nat) :=
  links.zipIdx.filter fun entry => HeldBack links rounds entry.2

/-- A link is held back for so many rounds and emitted in the next. -/
def EmittedIn (round position : Nat) : Prop :=
  HeldBack links round position ∧ ¬ HeldBack links (round + 1) position

/-- The links of the first so many rounds. -/
noncomputable def emittedBefore (rounds : Nat) : List (DeclaredLink × Nat) :=
  (List.range rounds).flatMap fun round =>
    links.zipIdx.filter fun entry => EmittedIn links round entry.2

variable {links}

theorem HeldBack.of_succ {rounds position : Nat} (held : HeldBack links (rounds + 1) position) :
    HeldBack links rounds position := by
  generalize later : rounds + 1 = count at held
  induction held generalizing rounds with
  | start => cases later
  | @waits count position link dep isLink isDep _ _ ahead behind =>
      cases later
      cases count with
      | zero => exact .start position
      | succ count =>
          exact .waits isLink isDep
            (fun other named isNamed sameName before => ahead other named isNamed sameName before rfl)
            (fun other named isNamed sameName after => behind other named isNamed sameName after rfl)

theorem HeldBack.mono {fewer rounds position : Nat} (held : HeldBack links rounds position)
    (le : fewer ≤ rounds) : HeldBack links fewer position := by
  induction le with
  | refl => exact held
  | step _ ih => exact ih held.of_succ

theorem exists_emittedIn {rounds position : Nat} (emitted : ¬ HeldBack links rounds position) :
    ∃ round < rounds, EmittedIn links round position := by
  induction rounds with
  | zero => exact absurd (.start position) emitted
  | succ rounds ih =>
      by_cases held : HeldBack links rounds position
      · exact ⟨rounds, Nat.lt_succ_self rounds, held, emitted⟩
      · obtain ⟨round, before, isIn⟩ := ih held
        exact ⟨round, Nat.lt_succ_of_lt before, isIn⟩

theorem EmittedIn.heldBack_iff {round rounds position : Nat}
    (emitted : EmittedIn links round position) :
    HeldBack links rounds position ↔ rounds ≤ round := by
  constructor
  · intro held
    by_contra later
    exact emitted.2 (held.mono (by omega))
  · exact emitted.1.mono

theorem mem_emittedBefore {rounds : Nat} {entry : DeclaredLink × Nat} :
    entry ∈ emittedBefore links rounds ↔
      entry ∈ links.zipIdx ∧ ¬ HeldBack links rounds entry.2 := by
  simp only [emittedBefore, mem_flatMap, mem_range, mem_filter, decide_eq_true_eq]
  constructor
  · rintro ⟨round, before, isEntry, emitted⟩
    refine ⟨isEntry, fun held => ?_⟩
    have le := emitted.heldBack_iff.mp held
    omega
  · rintro ⟨isEntry, emitted⟩
    obtain ⟨round, before, isIn⟩ := exists_emittedIn emitted
    exact ⟨round, before, isEntry, isIn⟩

theorem eq_of_position {first second : DeclaredLink} {position : Nat}
    (isFirst : (first, position) ∈ links.zipIdx) (isSecond : (second, position) ∈ links.zipIdx) :
    first = second := by
  rw [mk_mem_zipIdx_iff_getElem?] at isFirst isSecond
  exact Option.some.inj (isFirst.symm.trans isSecond)

/-- The names that are emitted before the turn of a position in a round. -/
def NamesBefore (links : List DeclaredLink) (round position : Nat) (out : List DeclaredLink) :
    Prop :=
  ∀ name, name ∈ out.map DeclaredLink.name ↔ ∃ link place, (link, place) ∈ links.zipIdx ∧
    link.name = name ∧
      (¬ HeldBack links round place ∨ place < position ∧ ¬ HeldBack links (round + 1) place)

variable {link : DeclaredLink} {round position : Nat} {out : List DeclaredLink}

theorem ready_iff
    (isLink : (link, position) ∈ links.zipIdx) (names : NamesBefore links round position out) :
    ((depsOf link (links.map DeclaredLink.name)).all fun dep =>
        dep ∈ out.map DeclaredLink.name) = true ↔ ¬ HeldBack links (round + 1) position := by
  rw [all_eq_true]
  constructor
  · intro ready held
    cases held with
    | waits isLink' isDep ahead behind =>
        cases eq_of_position isLink isLink'
        obtain ⟨named, place, isNamed, sameName, emitted⟩ :=
          (names _).mp (of_decide_eq_true (ready _ isDep))
        rcases emitted with earlier | ⟨before, thisRound⟩
        · refine earlier ?_
          by_cases before : place < position
          · exact (ahead place named isNamed sameName before).of_succ
          · exact behind place named isNamed sameName (Nat.not_lt.mp before)
        · exact thisRound (ahead place named isNamed sameName before)
  · intro emitted dep isDep
    refine decide_eq_true ((names dep).mpr ?_)
    by_contra missing
    refine emitted (.waits isLink isDep ?_ ?_)
    · intro place named isNamed sameName before
      by_contra early
      exact missing ⟨named, place, isNamed, sameName, .inr ⟨before, early⟩⟩
    · intro place named isNamed sameName _
      by_contra early
      exact missing ⟨named, place, isNamed, sameName, .inl early⟩

theorem NamesBefore.skip
    (names : NamesBefore links round position out)
    (unchanged : ¬ HeldBack links round position ∨ HeldBack links (round + 1) position) :
    NamesBefore links round (position + 1) out := by
  intro name
  rw [names name]
  constructor
  · rintro ⟨link, place, isLink, sameName, emitted⟩
    exact ⟨link, place, isLink, sameName,
      emitted.imp_right fun this => ⟨Nat.lt_succ_of_lt this.1, this.2⟩⟩
  · rintro ⟨link, place, isLink, sameName, emitted⟩
    refine ⟨link, place, isLink, sameName, ?_⟩
    rcases emitted with earlier | ⟨within, thisRound⟩
    · exact .inl earlier
    · rcases Nat.lt_succ_iff_lt_or_eq.mp within with before | rfl
      · exact .inr ⟨before, thisRound⟩
      · exact .inl (unchanged.resolve_right thisRound)

theorem NamesBefore.emit
    (names : NamesBefore links round position out) (isLink : (link, position) ∈ links.zipIdx)
    (emitted : ¬ HeldBack links (round + 1) position) :
    NamesBefore links round (position + 1) (out ++ [link]) := by
  intro name
  rw [map_append, mem_append, names name, map_singleton, mem_singleton]
  constructor
  · rintro (⟨other, place, isOther, sameName, early⟩ | rfl)
    · exact ⟨other, place, isOther, sameName,
        early.imp_right fun this => ⟨Nat.lt_succ_of_lt this.1, this.2⟩⟩
    · exact ⟨link, position, isLink, rfl, .inr ⟨Nat.lt_succ_self position, emitted⟩⟩
  · rintro ⟨other, place, isOther, sameName, early⟩
    rcases early with earlier | ⟨within, thisRound⟩
    · exact .inl ⟨other, place, isOther, sameName, .inl earlier⟩
    · rcases Nat.lt_succ_iff_lt_or_eq.mp within with before | rfl
      · exact .inl ⟨other, place, isOther, sameName, .inr ⟨before, thisRound⟩⟩
      · cases eq_of_position isLink isOther
        exact .inr sameName.symm

/-- One round over the links from a position on. -/
theorem emitReady_from {round : Nat} (rest : List DeclaredLink) {position : Nat}
    (within : ∀ entry ∈ rest.zipIdx position, entry ∈ links.zipIdx)
    (names : NamesBefore links round position out) :
    emitReady (links.map DeclaredLink.name) out
        (((rest.zipIdx position).filter fun entry => HeldBack links round entry.2).map Prod.fst) =
      (out ++ ((rest.zipIdx position).filter fun entry =>
          EmittedIn links round entry.2).map Prod.fst,
        ((rest.zipIdx position).filter fun entry =>
          HeldBack links (round + 1) entry.2).map Prod.fst) := by
  induction rest generalizing position out with
  | nil => simp [emitReady]
  | cons link rest ih =>
      rw [zipIdx_cons] at within ⊢
      have isLink : (link, position) ∈ links.zipIdx := within _ mem_cons_self
      have later : ∀ entry ∈ rest.zipIdx (position + 1), entry ∈ links.zipIdx :=
        fun entry member => within entry (mem_cons_of_mem _ member)
      have ready := ready_iff isLink names
      by_cases held : HeldBack links round position
      · by_cases stillHeld : HeldBack links (round + 1) position
        · have notReady : ¬ ((depsOf link (links.map DeclaredLink.name)).all fun dep =>
              dep ∈ out.map DeclaredLink.name) = true := fun isReady => ready.mp isReady stillHeld
          have next := ih later (names.skip (.inr stillHeld))
          simp only [filter_cons, held, stillHeld, EmittedIn, not_true, and_false, decide_true,
            decide_false, if_true, if_false, map_cons, Bool.false_eq_true]
          rw [emitReady, if_neg notReady]
          simp only [EmittedIn] at next
          rw [next]
        · have isReady := ready.mpr stillHeld
          have next := ih later (names.emit isLink stillHeld)
          simp only [filter_cons, held, stillHeld, EmittedIn, not_false_iff, and_true,
            decide_true, decide_false, if_true, if_false, map_cons, Bool.false_eq_true]
          rw [emitReady, if_pos isReady]
          simp only [EmittedIn] at next
          rw [next, List.append_assoc, singleton_append]
      · have stillNot : ¬ HeldBack links (round + 1) position := fun more => held more.of_succ
        have next := ih later (names.skip (.inl held))
        simpa only [filter_cons, held, stillNot, EmittedIn, false_and, decide_false, if_false,
          Bool.false_eq_true] using next

theorem emittedBefore_succ (rounds : Nat) : emittedBefore links (rounds + 1) =
      emittedBefore links rounds ++
        links.zipIdx.filter fun entry => EmittedIn links rounds entry.2 := by
  rw [emittedBefore, List.range_succ, flatMap_append, flatMap_singleton]
  rfl

/-- A round of the loop takes the schedule on by one round. -/
theorem emitReady_round (rounds : Nat) :
    emitReady (links.map DeclaredLink.name) ((emittedBefore links rounds).map Prod.fst)
        ((pendingAfter links rounds).map Prod.fst) =
      ((emittedBefore links (rounds + 1)).map Prod.fst,
        (pendingAfter links (rounds + 1)).map Prod.fst) := by
  have names : NamesBefore links rounds 0 ((emittedBefore links rounds).map Prod.fst) := by
    intro name
    simp only [map_map, mem_map, Function.comp_apply, mem_emittedBefore, Prod.exists,
      Nat.not_lt_zero, false_and, or_false, and_assoc]
    constructor
    · rintro ⟨link, place, isLink, emitted, sameName⟩
      exact ⟨link, place, isLink, sameName, emitted⟩
    · rintro ⟨link, place, isLink, sameName, emitted⟩
      exact ⟨link, place, isLink, emitted, sameName⟩
  rw [pendingAfter, emitReady_from links (fun _ member => member) names, emittedBefore_succ,
    map_append]
  rfl

/-- The loop emits the rounds of the schedule, up to one that emits nothing. -/
theorem Emits.follows {out remaining result : List DeclaredLink} {rounds : Nat}
    (emits : Emits (links.map DeclaredLink.name) out remaining result)
    (isOut : out = (emittedBefore links rounds).map Prod.fst)
    (isRemaining : remaining = (pendingAfter links rounds).map Prod.fst) :
    ∃ last, result = (emittedBefore links last ++ pendingAfter links last).map Prod.fst ∧
      ∀ entry ∈ pendingAfter links last, HeldBack links (last + 1) entry.2 := by
  induction emits generalizing rounds with
  | done out =>
      have none := map_eq_nil_iff.mp isRemaining.symm
      refine ⟨rounds, by rw [none, List.append_nil, isOut], fun entry member => ?_⟩
      rw [none] at member
      cases member
  | @stuck out remaining next notReady left round noProgress =>
      rw [isOut, isRemaining, emitReady_round] at round
      obtain ⟨isNext, isNotReady⟩ := Prod.mk.inj round
      -- Nothing leaves the pending links, so the round emits nothing.
      have fewer : List.Sublist (pendingAfter links (rounds + 1)) (pendingAfter links rounds) :=
        monotone_filter_right _ fun entry held => decide_eq_true (of_decide_eq_true held).of_succ
      have same : pendingAfter links (rounds + 1) = pendingAfter links rounds := by
        refine fewer.eq_of_length ?_
        rw [← isNotReady, isRemaining, length_map, length_map] at noProgress
        exact noProgress
      have stillHeld : ∀ entry ∈ pendingAfter links rounds,
          HeldBack links (rounds + 1) entry.2 := by
        intro entry member
        rw [← same] at member
        exact of_decide_eq_true (mem_filter.mp member).2
      have none : (links.zipIdx.filter fun entry => EmittedIn links rounds entry.2) = [] := by
        refine filter_eq_nil_iff.mpr fun entry isEntry emitted => ?_
        have held := of_decide_eq_true emitted
        exact held.2 (stillHeld entry (mem_filter.mpr ⟨isEntry, decide_eq_true held.1⟩))
      refine ⟨rounds, ?_, stillHeld⟩
      rw [← isNext, ← isNotReady, emittedBefore_succ, none, List.append_nil, same, map_append]
  | @round out remaining next notReady final left round progress later ih =>
      rw [isOut, isRemaining, emitReady_round] at round
      obtain ⟨isNext, isNotReady⟩ := Prod.mk.inj round
      exact ih isNext.symm isNotReady.symm

theorem topoSortLinksToAdd_follows (links : List DeclaredLink) : ∃ last,
    topoSortLinksToAdd links = (emittedBefore links last ++ pendingAfter links last).map Prod.fst ∧
      (links.length < 2 ∧ last = 0 ∨
        ∀ entry ∈ pendingAfter links last, HeldBack links (last + 1) entry.2) := by
  have pendingFirst : pendingAfter links 0 = links.zipIdx :=
    filter_eq_self.mpr fun entry _ => decide_eq_true (HeldBack.start entry.2)
  have all : (pendingAfter links 0).map Prod.fst = links := by rw [pendingFirst, zipIdx_map_fst]
  rw [topoSortLinksToAdd]
  split
  · rename_i short
    refine ⟨0, ?_, .inl ⟨short, rfl⟩⟩
    rw [map_append, all]
    rfl
  · have emits := @emits_emitRounds (links.map DeclaredLink.name) links.length [] links le_rfl
    obtain ⟨last, isResult, stuck⟩ := @Emits.follows links _ _ _ 0 emits rfl all.symm
    exact ⟨last, isResult, .inr stuck⟩

theorem mem_pendingAfter {rounds : Nat} {entry : DeclaredLink × Nat} :
    entry ∈ pendingAfter links rounds ↔ entry ∈ links.zipIdx ∧ HeldBack links rounds entry.2 := by
  rw [pendingAfter, mem_filter, decide_eq_true_eq]

/-- What the sort looks at are dependencies. -/
theorem refersTo_of_mem_depsOf {names : List String} {dep : String}
    (isDep : dep ∈ depsOf link names) : dep ∈ link.refersTo ∧ dep ∈ names :=
  let found := mem_filter.mp isDep
  ⟨found.1, of_decide_eq_true found.2⟩

theorem heldBack_of_independent {position rounds : Nat}
    (isLink : (link, position) ∈ links.zipIdx) (independent : link.Independent links) :
    ¬ HeldBack links (rounds + 1) position := by
  intro held
  cases held with
  | waits isLink' isDep _ _ =>
      cases eq_of_position isLink isLink'
      obtain ⟨refers, isName⟩ := refersTo_of_mem_depsOf isDep
      obtain ⟨named, isNamed, rfl⟩ := mem_map.mp isName
      exact independent named isNamed ⟨_, refers, mem_cons_self⟩

/-- Independent links are emitted in the first round, in their order. -/
theorem filter_independent_schedule (last : Nat) :
    (emittedBefore links last ++ pendingAfter links last).filter
        (fun entry => entry.1.Independent links) =
      links.zipIdx.filter fun entry => entry.1.Independent links := by
  induction last with
  | zero =>
      have pendingFirst : pendingAfter links 0 = links.zipIdx :=
        filter_eq_self.mpr fun entry _ => decide_eq_true (HeldBack.start entry.2)
      rw [pendingFirst]
      rfl
  | succ last ih =>
      have none : (pendingAfter links (last + 1)).filter
          (fun entry => entry.1.Independent links) = [] := by
        refine filter_eq_nil_iff.mpr fun entry member independent => ?_
        obtain ⟨isEntry, held⟩ := mem_pendingAfter.mp member
        exact heldBack_of_independent isEntry (of_decide_eq_true independent) held
      have thisRound : (links.zipIdx.filter fun entry => EmittedIn links last entry.2).filter
            (fun entry => entry.1.Independent links) =
          (pendingAfter links last).filter fun entry => entry.1.Independent links := by
        rw [pendingAfter, filter_filter, filter_filter]
        refine filter_congr fun entry isEntry => ?_
        by_cases independent : entry.1.Independent links
        · simp [EmittedIn, heldBack_of_independent isEntry independent]
        · simp [independent]
      rw [emittedBefore_succ, List.append_assoc, filter_append, filter_append, none,
        List.append_nil, thisRound, ← filter_append, ih]

theorem filter_independent (last : Nat) :
    ((emittedBefore links last ++ pendingAfter links last).map Prod.fst).filter
        (·.Independent links) = links.filter (·.Independent links) := by
  have whole := filter_map (f := Prod.fst) (p := fun link : DeclaredLink =>
    decide (link.Independent links)) (l := links.zipIdx)
  rw [zipIdx_map_fst] at whole
  rw [whole, filter_map]
  exact congrArg (List.map Prod.fst) (filter_independent_schedule last)

end Schedule

section Order

open Classical

variable {links : List DeclaredLink}

/-- Without a cycle, a property that every link has when its dependencies have
it holds of every link. -/
theorem Acyclic.induction (acyclic : Acyclic links) {holds : DeclaredLink → Prop}
    (step : ∀ link ∈ links, (∀ other ∈ links, link.DependsOn other → holds other) → holds link) :
    ∀ link ∈ links, holds link := by
  have order : IsStrictOrder DeclaredLink fun other link =>
      Relation.TransGen (Depends links) link other :=
    { irrefl := acyclic
      trans := fun _ _ _ first second => second.trans first }
  have finite : {link | link ∈ links}.Finite := links.finite_toSet
  have wellFounded : {link | link ∈ links}.WellFoundedOn fun other link =>
      Relation.TransGen (Depends links) link other := finite.wellFoundedOn
  intro link member
  refine wellFounded.induction member fun next isNext ih => ?_
  exact step next isNext fun other isOther dependsOn =>
    ih other isOther (.single ⟨isNext, isOther, dependsOn⟩)

/-- Without a cycle the loop does not stop while a link is pending. -/
theorem Acyclic.none_heldBack (acyclic : Acyclic links) {last : Nat}
    (stuck : ∀ entry ∈ pendingAfter links last, HeldBack links (last + 1) entry.2) :
    ∀ link ∈ links, ∀ position, (link, position) ∈ links.zipIdx →
      ¬ HeldBack links last position := by
  refine acyclic.induction fun link isLink ih position isEntry held => ?_
  cases stuck _ (mem_pendingAfter.mpr ⟨isEntry, held⟩) with
  | waits isEntry' isDep ahead behind =>
      cases eq_of_position isEntry isEntry'
      obtain ⟨refers, isName⟩ := refersTo_of_mem_depsOf isDep
      obtain ⟨named, isNamed, rfl⟩ := mem_map.mp isName
      obtain ⟨place, isPlace⟩ := mem_iff_getElem?.mp isNamed
      have isEntry := mk_mem_zipIdx_iff_getElem?.mpr isPlace
      refine ih named isNamed ⟨_, refers, mem_cons_self⟩ place isEntry ?_
      by_cases before : place < position
      · exact (ahead place named isEntry rfl before).of_succ
      · exact behind place named isEntry rfl (Nat.not_lt.mp before)

/-- An entry is emitted ahead of another: in an earlier round, or in the same
round and declared ahead of it. -/
def EmittedAhead (links : List DeclaredLink) (first second : DeclaredLink × Nat) : Prop :=
  ∃ earlier later, EmittedIn links earlier first.2 ∧ EmittedIn links later second.2 ∧
    (earlier < later ∨ earlier = later ∧ first.2 < second.2)

theorem pairwise_zipIdx (links : List DeclaredLink) :
    links.zipIdx.Pairwise fun first second => first.2 < second.2 := by
  have positions : (links.zipIdx.map Prod.snd).Pairwise (· < ·) := by
    rw [zipIdx_map_snd]
    exact pairwise_lt_range'
  exact pairwise_map.mp positions

theorem pairwise_emittedBefore (rounds : Nat) :
    (emittedBefore links rounds).Pairwise (EmittedAhead links) := by
  refine pairwise_flatMap.mpr ⟨fun round _ => ?_, ?_⟩
  · refine ((pairwise_zipIdx links).filter _).imp_of_mem fun isFirst isSecond before => ?_
    exact ⟨round, round, of_decide_eq_true (mem_filter.mp isFirst).2,
      of_decide_eq_true (mem_filter.mp isSecond).2, .inr ⟨rfl, before⟩⟩
  · refine pairwise_lt_range.imp fun before first isFirst second isSecond => ?_
    exact ⟨_, _, of_decide_eq_true (mem_filter.mp isFirst).2,
      of_decide_eq_true (mem_filter.mp isSecond).2, .inl before⟩

theorem EmittedIn.unique {first second position : Nat} (isFirst : EmittedIn links first position)
    (isSecond : EmittedIn links second position) : first = second :=
  Nat.le_antisymm (isSecond.heldBack_iff.mp isFirst.1) (isFirst.heldBack_iff.mp isSecond.1)

theorem EmittedAhead.asymm {first second : DeclaredLink × Nat}
    (ahead : EmittedAhead links first second) : ¬ EmittedAhead links second first := by
  obtain ⟨earlier, later, isEarlier, isLater, order⟩ := ahead
  rintro ⟨earlier', later', isEarlier', isLater', order'⟩
  cases isEarlier.unique isLater'
  cases isLater.unique isEarlier'
  omega

/-- A relation holds along a schedule when it holds of every two of its entries
of which one is emitted ahead of the other. -/
theorem pairwise_emittedBefore_iff {rounds : Nat} {holds : DeclaredLink → DeclaredLink → Prop} :
    ((emittedBefore links rounds).map Prod.fst).Pairwise holds ↔
      ∀ first ∈ emittedBefore links rounds, ∀ second ∈ emittedBefore links rounds,
        EmittedAhead links first second → holds first.1 second.1 := by
  rw [pairwise_map]
  constructor
  · intro along first isFirst second isSecond ahead
    have both := along.and (pairwise_emittedBefore rounds)
    have either : (emittedBefore links rounds).Pairwise fun first second =>
        (holds first.1 second.1 ∧ EmittedAhead links first second) ∨
          holds second.1 first.1 ∧ EmittedAhead links second first :=
      both.imp fun this => .inl this
    have different : first ≠ second := by
      rintro rfl
      exact ahead.asymm ahead
    have symmetric : Std.Symm fun first second : DeclaredLink × Nat =>
        (holds first.1 second.1 ∧ EmittedAhead links first second) ∨
          holds second.1 first.1 ∧ EmittedAhead links second first :=
      ⟨fun _ _ this => this.symm⟩
    rcases either.forall isFirst isSecond different with this | other
    · exact this.1
    · exact absurd other.2 ahead.asymm
  · intro each
    exact (pairwise_emittedBefore rounds).imp_of_mem fun isFirst isSecond ahead =>
      each _ isFirst _ isSecond ahead

/-- When all links are emitted, they are in the order of their dependencies exactly
when each is held back in time. -/
theorem pairwise_iff_eachInTime {last : Nat}
    (all : ∀ entry ∈ links.zipIdx, ¬ HeldBack links last entry.2) :
    (((emittedBefore links last).map Prod.fst).Pairwise fun earlier later =>
        ¬ earlier.DependsOn later) ↔ EachInTime links := by
  rw [pairwise_emittedBefore_iff]
  have isEmitted : ∀ entry ∈ links.zipIdx, entry ∈ emittedBefore links last :=
    fun entry isEntry => mem_emittedBefore.mpr ⟨isEntry, all entry isEntry⟩
  constructor
  · intro ordered link position other place isLink isOther dependsOn
    obtain ⟨round, _, emitted⟩ := exists_emittedIn (all _ isLink)
    obtain ⟨otherRound, _, otherEmitted⟩ := exists_emittedIn (all _ isOther)
    have notAhead : ¬ EmittedAhead links (link, position) (other, place) := fun ahead =>
      ordered _ (isEmitted _ isLink) _ (isEmitted _ isOther) ahead dependsOn
    have inTime : ¬ (round < otherRound ∨ round = otherRound ∧ position < place) :=
      fun order => notAhead ⟨round, otherRound, emitted, otherEmitted, order⟩
    refine ⟨fun rounds held => ?_, fun before => ⟨round, emitted.1, fun held => ?_⟩⟩
    · rw [otherEmitted.heldBack_iff] at held
      exact emitted.heldBack_iff.mpr (by omega)
    · rw [otherEmitted.heldBack_iff] at held
      omega
  · rintro inTime ⟨link, position⟩ isLink ⟨other, place⟩ isOther
      ⟨round, otherRound, emitted, otherEmitted, order⟩ dependsOn
    obtain ⟨longer, strictly⟩ := inTime link position other place
      (mem_emittedBefore.mp isLink).1 (mem_emittedBefore.mp isOther).1 dependsOn
    have atLeast := emitted.heldBack_iff.mp (longer otherRound otherEmitted.1)
    rcases order with earlier | ⟨rfl, before⟩
    · omega
    · obtain ⟨rounds, held, released⟩ := strictly before
      exact released (otherEmitted.heldBack_iff.mpr (emitted.heldBack_iff.mp held))

/-- A single link does not depend on itself. -/
theorem Acyclic.eachInTime_of_short (acyclic : Acyclic links) (short : links.length < 2) :
    EachInTime links := by
  intro link position other place isLink isOther dependsOn
  rw [mk_mem_zipIdx_iff_getElem?] at isLink isOther
  obtain ⟨bound, _⟩ := List.getElem?_eq_some_iff.mp isLink
  obtain ⟨otherBound, _⟩ := List.getElem?_eq_some_iff.mp isOther
  obtain rfl : position = place := by omega
  cases Option.some.inj (isLink.symm.trans isOther)
  have member := mem_of_getElem? isLink
  exact absurd (.single ⟨member, member, dependsOn⟩) (acyclic link)

/-- When names are distinct and no link names the other end of a pair, each link is
held back in time. -/
theorem Acyclic.eachInTime_of_ownNames (acyclic : Acyclic links)
    (distinct : (links.map DeclaredLink.name).Nodup)
    (noPeer : ∀ link ∈ links, ∀ other ∈ links, ∀ peer ∈ other.linkType.peer,
      peer ∉ link.refersTo) : EachInTime links := by
  intro link position other place isLink isOther dependsOn
  have linkAt := mk_mem_zipIdx_iff_getElem?.mp isLink
  have otherAt := mk_mem_zipIdx_iff_getElem?.mp isOther
  have isDep : other.name ∈ depsOf link (links.map DeclaredLink.name) := by
    obtain ⟨name, refers, brought⟩ := dependsOn
    rcases mem_cons.mp brought with rfl | isPeer
    · exact mem_filter.mpr ⟨refers, decide_eq_true (mem_map_of_mem (mem_of_getElem? otherAt))⟩
    · exact absurd refers (noPeer link (mem_of_getElem? linkAt) other (mem_of_getElem? otherAt)
        name (Option.mem_toList.mp isPeer))
  have only : ∀ at' named, (named, at') ∈ links.zipIdx → named.name = other.name → at' = place := by
    intro at' named isNamed sameName
    have namedAt := mk_mem_zipIdx_iff_getElem?.mp isNamed
    obtain ⟨bound, _⟩ := List.getElem?_eq_some_iff.mp namedAt
    refine (List.getElem?_inj (by rwa [length_map]) distinct).mp ?_
    rw [getElem?_map, getElem?_map, namedAt, otherAt, Option.map_some, Option.map_some, sameName]
  refine ⟨fun rounds held => ?_, fun before => ?_⟩
  · cases rounds with
    | zero => exact .start position
    | succ rounds =>
        refine .waits isLink isDep ?_ ?_
        · intro at' named isNamed sameName _
          rwa [only at' named isNamed sameName]
        · intro at' named isNamed sameName _
          rw [only at' named isNamed sameName]
          exact held.of_succ
  · have emitted : ∃ last, ¬ HeldBack links last place := by
      obtain ⟨last, _, ⟨short, _⟩ | stuck⟩ := topoSortLinksToAdd_follows links
      · obtain ⟨bound, _⟩ := List.getElem?_eq_some_iff.mp otherAt
        omega
      · exact ⟨last, acyclic.none_heldBack stuck other (mem_of_getElem? otherAt) place isOther⟩
    obtain ⟨last, isOut⟩ := emitted
    obtain ⟨round, _, held, released⟩ := exists_emittedIn isOut
    refine ⟨round + 1, .waits isLink isDep ?_ ?_, released⟩
    · intro at' named isNamed sameName ahead
      have same := only at' named isNamed sameName
      omega
    · intro at' named isNamed sameName _
      rwa [only at' named isNamed sameName]

/-- The sort does what it is for exactly when, unless there is a cycle, each link
is held back in time. -/
theorem topoSortLinksToAdd_sorted_iff (links : List DeclaredLink) :
    TopoSorted links (topoSortLinksToAdd links) ↔ (Acyclic links → EachInTime links) := by
  obtain ⟨last, isResult, stuck⟩ := topoSortLinksToAdd_follows links
  have orderedIff : Acyclic links →
      ((topoSortLinksToAdd links).Pairwise (fun earlier later => ¬ earlier.DependsOn later) ↔
        EachInTime links) := by
    intro acyclic
    rcases stuck with ⟨short, _⟩ | stuck
    · refine iff_of_true ?_ (acyclic.eachInTime_of_short short)
      rw [topoSortLinksToAdd, if_pos short]
      rcases links with _ | ⟨link, _ | ⟨other, rest⟩⟩
      · exact .nil
      · exact pairwise_singleton _ link
      · rw [length_cons, length_cons] at short
        omega
    · have all : ∀ entry ∈ links.zipIdx, ¬ HeldBack links last entry.2 := by
        intro entry isEntry
        have isLink := mk_mem_zipIdx_iff_getElem?.mp isEntry
        exact acyclic.none_heldBack stuck entry.1 (mem_of_getElem? isLink) entry.2 isEntry
      have none : pendingAfter links last = [] :=
        filter_eq_nil_iff.mpr fun entry isEntry held => all entry isEntry (of_decide_eq_true held)
      rw [isResult, none, List.append_nil]
      exact pairwise_iff_eachInTime all
  constructor
  · intro sorted acyclic
    exact (orderedIff acyclic).mp (sorted.ordered acyclic)
  · intro inTime
    refine ⟨?_, topoSortLinksToAdd_perm links, ?_, fun acyclic =>
      (orderedIff acyclic).mpr (inTime acyclic)⟩
    · by_cases short : links.length < 2
      · exact .inl short
      · refine .inr ?_
        rw [topoSortLinksToAdd, if_neg short]
        exact emits_emitRounds _ (Nat.le_refl _)
    · rw [isResult]
      exact filter_independent last

end Order

/-- A list whose dependencies have a rank has no cycle. -/
theorem acyclic_of_rank {links : List DeclaredLink} (rank : DeclaredLink → Nat)
    (lower : ∀ link ∈ links, ∀ other ∈ links, link.DependsOn other → rank other < rank link) :
    Acyclic links := by
  have descends : ∀ link other, Relation.TransGen (Depends links) link other →
      rank other < rank link := by
    intro link other chain
    induction chain with
    | single step => exact lower _ step.1 _ step.2.1 step.2.2
    | tail _ step ih => exact (lower _ step.1 _ step.2.1 step.2.2).trans ih
  exact fun link chain => Nat.lt_irrefl _ (descends link link chain)

/-- A VLAN on the other end of a veth pair, and the pair. -/
def vlanOnPeer : DeclaredLink where
  name := "vlan10"
  linkType := .vlan "veth1"
  state := .up
  mtu := none
  master := none
  address := none

def vethPair : DeclaredLink where
  name := "veth0"
  linkType := .veth "veth1"
  state := .up
  mtu := none
  master := none
  address := none

/-- The VLAN stays ahead of the pair that brings its parent. -/
theorem topoSortLinksToAdd_missesPeer :
    ¬ TopoSorted [vlanOnPeer, vethPair] (topoSortLinksToAdd [vlanOnPeer, vethPair]) := by
  have acyclic : Acyclic [vlanOnPeer, vethPair] := by
    refine acyclic_of_rank (fun link => if link = vlanOnPeer then 1 else 0) ?_
    decide
  intro sorted
  have ordered := sorted.ordered acyclic
  revert ordered
  decide

end Nlink.Network
