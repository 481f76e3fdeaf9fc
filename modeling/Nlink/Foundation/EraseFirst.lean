import Mathlib.Data.List.Basic
import Mathlib.Data.List.Perm.Basic

namespace Foundation

open List

/-!
# Removing first matches one after another

A removal takes the first element of a list that a predicate accepts, and
leaves the list alone if there is none.  A run removes one match for each key
of a list of keys.
-/

variable {α κ : Type}

theorem filter_eraseP_of_disjoint {removed kept : α → Bool}
    (disjoint : ∀ element, removed element = true → kept element = false) (elements : List α) :
    (elements.eraseP removed).filter kept = elements.filter kept := by
  induction elements with
  | nil => rfl
  | cons element rest ih =>
      cases isRemoved : removed element with
      | true =>
          rw [eraseP_cons_of_pos isRemoved, filter_cons, disjoint element isRemoved]
          rfl
      | false => rw [eraseP_cons_of_neg (by simp [isRemoved]), filter_cons, filter_cons, ih]

theorem countP_eraseP_self (removed : α → Bool) (elements : List α) :
    (elements.eraseP removed).countP removed = elements.countP removed - 1 := by
  induction elements with
  | nil => rfl
  | cons element rest ih =>
      cases isRemoved : removed element with
      | true =>
          rw [eraseP_cons_of_pos isRemoved, countP_cons_of_pos isRemoved]
          rfl
      | false =>
          have isKept : ¬ removed element = true := by simp [isRemoved]
          rw [eraseP_cons_of_neg isKept, countP_cons_of_neg isKept, countP_cons_of_neg isKept, ih]

def matchesKey [BEq κ] (eligible : α → Bool) (keyOf : α → κ) (key : κ) (element : α) : Bool :=
  eligible element && keyOf element == key

def eraseKeys [BEq κ] (eligible : α → Bool) (keyOf : α → κ) (keys : List κ)
    (elements : List α) : List α :=
  keys.foldl
    (fun elements key => elements.eraseP (matchesKey eligible keyOf key))
    elements

section Keys

variable [BEq κ]
variable {eligible : α → Bool}
variable {keyOf : α → κ}

theorem eraseKeys_sublist (keys : List κ) (elements : List α) :
    (eraseKeys eligible keyOf keys elements).Sublist elements := by
  induction keys generalizing elements with
  | nil => exact List.Sublist.refl _
  | cons key rest ih => exact (ih _).trans eraseP_sublist

theorem filter_eraseKeys_of_disjoint {kept : α → Bool} {keys : List κ}
    (disjoint : ∀ key ∈ keys, ∀ element,
      matchesKey eligible keyOf key element = true → kept element = false)
    (elements : List α) :
    (eraseKeys eligible keyOf keys elements).filter kept = elements.filter kept := by
  induction keys generalizing elements with
  | nil => rfl
  | cons key rest ih =>
      obtain ⟨here, later⟩ := forall_mem_cons.mp disjoint
      have step := filter_eraseP_of_disjoint here elements
      exact (ih later _).trans step

theorem mem_eraseKeys_of_not_eligible {keys : List κ} {elements : List α} {element : α}
    (member : element ∈ elements) (notEligible : eligible element = false) :
    element ∈ eraseKeys eligible keyOf keys elements := by
  induction keys generalizing elements with
  | nil => exact member
  | cons key rest ih =>
      refine ih ((mem_eraseP_of_neg ?_).mpr member)
      simp [matchesKey, notEligible]

end Keys

theorem countP_eraseKeys [BEq κ] [LawfulBEq κ] {eligible : α → Bool} {keyOf : α → κ} (keys : List κ)
    (key : κ) (elements : List α) :
    (eraseKeys eligible keyOf keys elements).countP (matchesKey eligible keyOf key) =
      elements.countP (matchesKey eligible keyOf key) - keys.count key := by
  induction keys generalizing elements with
  | nil => rfl
  | cons first rest ih =>
      have run := ih (elements.eraseP (matchesKey eligible keyOf first))
      refine run.trans ?_
      by_cases same : first = key
      · rw [same, countP_eraseP_self, count_cons_self]
        omega
      · have others : ∀ element, matchesKey eligible keyOf first element = true →
              matchesKey eligible keyOf key element = false := by
          intro element isFirst
          obtain ⟨_, isKey⟩ := Bool.and_eq_true_iff.mp isFirst
          rw [matchesKey, beq_iff_eq.mp isKey, beq_eq_false_iff_ne.mpr same, Bool.and_false]
        have untouched := filter_eraseP_of_disjoint others elements
        rw [countP_eq_length_filter, untouched, ← countP_eq_length_filter, count_cons_of_ne same]

theorem not_mem_eraseKeys [BEq κ] [LawfulBEq κ] {eligible : α → Bool} {keyOf : α → κ}
    {keys : List κ} {elements : List α} {element : α} (isEligible : eligible element = true)
    (enough : elements.countP (matchesKey eligible keyOf (keyOf element)) ≤
      keys.count (keyOf element)) : element ∉ eraseKeys eligible keyOf keys elements := by
  intro member
  have isMatch : matchesKey eligible keyOf (keyOf element) element = true := by
    rw [matchesKey, isEligible, beq_self_eq_true]
    rfl
  have remaining := countP_pos_iff.mpr ⟨element, member, isMatch⟩
  rw [countP_eraseKeys] at remaining
  omega

/-!
## Removing entries together with their dependants

A removal takes the first entry with a key and, with it, all entries that go
along; it fails if no entry has the key.  If a run has as many keys as there
are entries, it succeeds exactly if the keys are those of the entries in some
order and no removal takes an entry along.
-/

variable {α κ : Type} [BEq κ] [LawfulBEq κ]
variable (keyOf : α → κ)
variable (along : α → α → Bool)

def hasKey (key : κ) (entry : α) : Bool :=
  keyOf entry == key

/-- Remove the first entry with a key and what goes along with it. -/
def eraseAlong (key : κ) (entries : List α) : Option (List α) :=
  (entries.find? (hasKey keyOf key)).map fun entry =>
    (entries.eraseP (hasKey keyOf key)).filter fun other => !along entry other

/-- Remove for one key after another. -/
def eraseAllAlong : List κ → List α → Option (List α)
  | [], entries => some entries
  | key :: keys, entries => (eraseAlong keyOf along key entries).bind (eraseAllAlong keys)

/-- No removal takes an entry along. -/
def Undisturbed : List κ → List α → Prop
  | [], _ => True
  | key :: keys, entries =>
      (∀ entry, entries.find? (hasKey keyOf key) = some entry →
        ∀ other ∈ entries, along entry other = false) ∧
        Undisturbed keys (entries.eraseP (hasKey keyOf key))

variable {entries : List α}

theorem perm_of_find? {key : κ} {entry : α}
    (found : entries.find? (hasKey keyOf key) = some entry) :
    keyOf entry = key ∧ (entry :: entries.eraseP (hasKey keyOf key)).Perm entries := by
  induction entries with
  | nil => cases found
  | cons first rest ih =>
      cases isFirst : hasKey keyOf key first with
      | true =>
          rw [find?_cons_of_pos isFirst] at found
          cases found
          rw [eraseP_cons_of_pos isFirst]
          exact ⟨beq_iff_eq.mp isFirst, List.Perm.refl _⟩
      | false =>
          have notFirst : ¬ hasKey keyOf key first = true := by simp [isFirst]
          rw [find?_cons_of_neg notFirst] at found
          obtain ⟨isKey, rest⟩ := ih found
          rw [eraseP_cons_of_neg notFirst]
          exact ⟨isKey, (List.Perm.swap first entry _).trans (rest.cons first)⟩

theorem eraseAlong_length_lt {key : κ} {entries left : List α}
    (removed : eraseAlong keyOf along key entries = some left) : left.length < entries.length := by
  obtain ⟨entry, found, rfl⟩ := Option.map_eq_some_iff.mp removed
  have count := (perm_of_find? keyOf found).2.length_eq
  have fewer := length_filter_le (fun other => !along entry other)
    (entries.eraseP (hasKey keyOf key))
  rw [length_cons] at count
  omega

variable {keys : List κ}

theorem eraseAllAlong_length_le {entries left : List α}
    (removed : eraseAllAlong keyOf along keys entries = some left) :
    left.length + keys.length ≤ entries.length := by
  induction keys generalizing entries with
  | nil =>
      cases removed
      exact Nat.le_refl _
  | cons key rest ih =>
      obtain ⟨middle, here, later⟩ := Option.bind_eq_some_iff.mp removed
      have less := eraseAlong_length_lt keyOf along here
      have more := ih later
      rw [length_cons]
      omega

/-- A run with a key for each entry succeeds exactly if its keys are those of
the entries and nothing is taken along. -/
theorem eraseAllAlong_isSome_iff (irreflexive : ∀ entry, along entry entry = false)
    (enough : entries.length ≤ keys.length) :
    (eraseAllAlong keyOf along keys entries).isSome = true ↔
      keys.Perm (entries.map keyOf) ∧ Undisturbed keyOf along keys entries := by
  induction keys generalizing entries with
  | nil =>
      cases eq_nil_of_length_eq_zero (Nat.le_zero.mp enough)
      exact iff_of_true rfl ⟨List.Perm.refl _, trivial⟩
  | cons key rest ih =>
      rw [length_cons] at enough
      cases found : entries.find? (hasKey keyOf key) with
      | none =>
          have fails : eraseAllAlong keyOf along (key :: rest) entries =
              none := by
            rw [eraseAllAlong, eraseAlong, found]
            rfl
          rw [fails]
          refine iff_of_false (by simp) ?_
          rintro ⟨same, _⟩
          obtain ⟨entry, member, isKey⟩ := mem_map.mp (same.mem_iff.mp (mem_cons_self ..))
          exact find?_eq_none.mp found entry member (beq_iff_eq.mpr isKey)
      | some entry =>
          obtain ⟨isKey, split⟩ := perm_of_find? keyOf found
          have count := split.length_eq
          rw [length_cons] at count
          have keysSplit : (key :: rest).Perm (entries.map keyOf) ↔
                rest.Perm ((entries.eraseP (hasKey keyOf key)).map keyOf) := by
            have mapped := split.map keyOf
            rw [map_cons, isKey] at mapped
            exact ⟨fun same => (perm_cons key).mp (same.trans mapped.symm),
              fun same => (same.cons key).trans mapped⟩
          have step : eraseAllAlong keyOf along (key :: rest) entries =
              eraseAllAlong keyOf along rest
                ((entries.eraseP (hasKey keyOf key)).filter fun other => !along entry other) := by
            rw [eraseAllAlong, eraseAlong, found]
            rfl
          rw [step, keysSplit]
          constructor
          · intro succeeds
            obtain ⟨left, run⟩ := Option.isSome_iff_exists.mp succeeds
            have room := eraseAllAlong_length_le keyOf along run
            have fewer := length_filter_le (fun other => !along entry other)
              (entries.eraseP (hasKey keyOf key))
            have whole : (entries.eraseP (hasKey keyOf key)).filter
                    (fun other => !along entry other) =
                  entries.eraseP (hasKey keyOf key) :=
              filter_sublist.eq_of_length (by omega)
            rw [whole] at succeeds
            obtain ⟨same, later⟩ := (ih (by omega)).mp succeeds
            refine ⟨same, fun first isFirst other member => ?_, later⟩
            cases found.symm.trans isFirst
            obtain rfl | behind := mem_cons.mp (split.mem_iff.mpr member)
            · exact irreflexive other
            · have stays := filter_eq_self.mp whole other behind
              rwa [Bool.not_eq_true'] at stays
          · rintro ⟨same, here, later⟩
            have whole : (entries.eraseP (hasKey keyOf key)).filter
                    (fun other => !along entry other) =
                  entries.eraseP (hasKey keyOf key) := by
              refine filter_eq_self.mpr fun other member => ?_
              rw [here entry found other (split.mem_iff.mp (mem_cons_of_mem _ member))]
              rfl
            rw [whole]
            exact (ih (by omega)).mpr ⟨same, later⟩

theorem first_of_filter {isMatch kept : α → Bool}
    (only : ∀ entry ∈ entries, isMatch entry = true → kept entry = true) :
    (entries.filter kept).find? isMatch = entries.find? isMatch ∧
      (entries.filter kept).eraseP isMatch = (entries.eraseP isMatch).filter kept := by
  induction entries with
  | nil => exact ⟨rfl, rfl⟩
  | cons entry rest ih =>
      obtain ⟨here, later⟩ := forall_mem_cons.mp only
      obtain ⟨first, erased⟩ := ih later
      cases isEntry : isMatch entry with
      | true =>
          rw [filter_cons_of_pos (here isEntry), find?_cons_of_pos isEntry,
            find?_cons_of_pos isEntry, eraseP_cons_of_pos isEntry, eraseP_cons_of_pos isEntry]
          exact ⟨rfl, rfl⟩
      | false =>
          have notEntry : ¬ isMatch entry = true := by simp [isEntry]
          rw [find?_cons_of_neg notEntry, eraseP_cons_of_neg notEntry, filter_cons, filter_cons]
          split
          · rw [find?_cons_of_neg notEntry, eraseP_cons_of_neg notEntry, erased]
            exact ⟨first, rfl⟩
          · exact ⟨first, erased⟩

theorem filter_eraseAllAlong {kept : α → Bool}
    (only : ∀ entry ∈ entries, keyOf entry ∈ keys → kept entry = true) :
    (eraseAllAlong keyOf along keys entries).map (List.filter kept) =
      eraseAllAlong keyOf along keys (entries.filter kept) := by
  induction keys generalizing entries with
  | nil => rfl
  | cons key rest ih =>
      have isKept : ∀ entry ∈ entries, hasKey keyOf key entry = true → kept entry = true :=
        fun entry member isKey =>
          only entry member (by
            rw [beq_iff_eq.mp isKey]
            exact mem_cons_self ..)
      obtain ⟨first, erased⟩ := first_of_filter isKept
      rw [eraseAllAlong, eraseAllAlong, eraseAlong, eraseAlong, first, erased]
      cases entries.find? (hasKey keyOf key) with
      | none => rfl
      | some entry =>
          have swapped : ((entries.eraseP (hasKey keyOf key)).filter kept).filter
                  (fun other => !along entry other) =
                ((entries.eraseP (hasKey keyOf key)).filter
                  fun other => !along entry other).filter kept := by
            rw [filter_filter, filter_filter]
            exact filter_congr fun other _ => Bool.and_comm _ _
          change (eraseAllAlong keyOf along rest _).map _ = eraseAllAlong keyOf along rest
              (((entries.eraseP (hasKey keyOf key)).filter kept).filter
                fun other => !along entry other)
          rw [swapped]
          refine ih fun other member isKey => ?_
          have inside := mem_of_mem_eraseP (mem_filter.mp member).1
          exact only other inside (mem_cons_of_mem _ isKey)

theorem undisturbed_map_iff (irreflexive : ∀ entry, along entry entry = false) (entries : List α) :
    Undisturbed keyOf along (entries.map keyOf) entries ↔
      entries.Pairwise fun entry other => along entry other = false := by
  induction entries with
  | nil => exact iff_of_true trivial List.Pairwise.nil
  | cons entry rest ih =>
      have isKey : hasKey keyOf (keyOf entry) entry = true := beq_self_eq_true _
      rw [map_cons, Undisturbed, find?_cons_of_pos isKey, eraseP_cons_of_pos isKey,
        ih, pairwise_cons]
      refine and_congr_left fun _ => ?_
      constructor
      · intro all other member
        exact all entry rfl other (mem_cons_of_mem _ member)
      · intro all first isFirst other member
        cases isFirst
        obtain rfl | behind := mem_cons.mp member
        · exact irreflexive _
        · exact all other behind

end Foundation
