import Mathlib.Data.List.Basic

namespace Foundation

/-!
# Ranges between two marks

A list mixes single items with marks at the two ends of ranges.  A start belongs
to the mark behind it if that is an end; otherwise it stands for itself.
-/

/-- An item of such a list. -/
inductive Mark (α : Type) where
  | start (first : α)
  | finish (last : α)
  | single (item : α)

namespace Mark

variable {α β : Type}

def single? : Mark α → Option α
  | .single item => some item
  | _ => none

/-- The items that are no marks. -/
def singles (items : List (Mark α)) : List α :=
  items.filterMap single?

def bounds (items : List (Mark α)) : List (Mark α) :=
  items.filter fun item => item.single?.isNone

/-- Each start with the end behind it, if there is one. -/
def ranges : List (Mark α) → List (α × Option α)
  | .start first :: .finish last :: rest => (first, some last) :: ranges rest
  | .start first :: rest => (first, none) :: ranges rest
  | _ :: rest => ranges rest
  | [] => []

variable (one : α → β) (expand : α → α → Option (List β))

/-- The range that ends, if one is open. -/
def closing (opened : Option α) (last : α) : Option (List β) :=
  match opened with
  | some first => expand first last
  | none => some []

/-- One pass over the items with the start that is still open.  What it yields,
and the start that is open at the end. -/
def scan : Option α → List (Mark α) → Option (List β × Option α)
  | opened, [] => some ([], opened)
  | opened, .single item :: rest =>
      (scan opened rest).map fun (found, left) => (one item :: found, left)
  | opened, .start first :: rest =>
      (scan (some first) rest).map fun (found, left) => (opened.toList.map one ++ found, left)
  | opened, .finish last :: rest =>
      (closing expand opened last).bind fun range =>
        (scan none rest).map fun (found, left) => (range ++ found, left)

/-- The marks that are ahead of a pass, with the start that is open. -/
def ahead (opened : Option α) (items : List (Mark α)) : List (Mark α) :=
  opened.toList.map .start ++ bounds items

def entries (whole : α → α → List β) (range : α × Option α) : List β :=
  range.2.elim [one range.1] (whole range.1)

variable {one} {expand} {opened : Option α}

variable {items : List (Mark α)}

/-- A pass yields the single items and the ranges, each start that is left open
aside. -/
theorem scan_perm {whole : α → α → List β}
    (isWhole : ∀ first last range, expand first last = some range → range = whole first last)
    {found : List β} {left : Option α}
    (scanned : scan one expand opened items = some (found, left)) :
    (found ++ left.toList.map one).Perm ((singles items).map one ++
      (ranges (ahead opened items)).flatMap (entries one whole)) := by
  induction items generalizing opened found with
  | nil =>
      obtain ⟨rfl, rfl⟩ := Prod.mk.inj (Option.some.inj scanned)
      cases opened with
      | none => exact List.Perm.refl _
      | some first => exact List.Perm.refl _
  | cons item rest ih =>
      cases item with
      | single item =>
          obtain ⟨⟨later, left⟩, isLater, isFound⟩ := Option.map_eq_some_iff.mp scanned
          cases isFound
          exact (ih isLater).cons (one item)
      | start first =>
          obtain ⟨⟨later, left⟩, isLater, isFound⟩ := Option.map_eq_some_iff.mp scanned
          cases isFound
          have behind := ih isLater
          cases opened with
          | none => exact behind
          | some earlier =>
              change List.Perm (one earlier :: (later ++ left.toList.map one)) _
              refine (behind.cons (one earlier)).trans ?_
              exact List.perm_middle.symm
      | finish last =>
          obtain ⟨range, isRange, isLater⟩ := Option.bind_eq_some_iff.mp scanned
          obtain ⟨⟨later, left⟩, isLater, isFound⟩ := Option.map_eq_some_iff.mp isLater
          cases isFound
          have behind := ih isLater
          cases opened with
          | none =>
              cases isRange
              exact behind
          | some first =>
              cases isWhole first last range isRange
              rw [List.append_assoc]
              refine (behind.append_left _).trans ?_
              exact List.perm_append_comm_assoc _ _ _

/-- A pass goes through if every range can be expanded. -/
theorem scan_isSome_iff :
    (scan one expand opened items).isSome ↔
      ∀ first last, (first, some last) ∈ ranges (ahead opened items) →
        (expand first last).isSome := by
  induction items generalizing opened with
  | nil => cases opened <;> simp [scan, ahead, bounds, ranges]
  | cons item rest ih =>
      cases item with
      | single item =>
          rw [scan, Option.isSome_map]
          exact ih
      | start first =>
          rw [scan, Option.isSome_map, ih]
          cases opened with
          | none => rfl
          | some earlier =>
              change _ ↔ ∀ begun last, (begun, some last) ∈ (earlier, none) ::
                ranges (ahead (some first) rest) → _
              simp
      | finish last =>
          cases opened with
          | none =>
              rw [scan, closing, Option.bind_some, Option.isSome_map, ih]
              rfl
          | some first =>
              change ((expand first last).bind _).isSome ↔ ∀ begun ended, (begun, some ended) ∈
                (first, some last) :: ranges (ahead none rest) → _
              constructor
              · intro whole begun ended member
                cases isRange : expand first last with
                | none =>
                    rw [isRange] at whole
                    cases whole
                | some range =>
                    rw [isRange, Option.bind_some, Option.isSome_map, ih] at whole
                    rcases List.mem_cons.mp member with here | later
                    · cases here
                      rw [isRange]
                      rfl
                    · exact whole begun ended later
              · intro each
                obtain ⟨range, isRange⟩ :=
                  Option.isSome_iff_exists.mp (each first last List.mem_cons_self)
                rw [isRange, Option.bind_some, Option.isSome_map, ih]
                exact fun begun ended member => each begun ended (List.mem_cons_of_mem _ member)

/-- No start is left open exactly if the last mark is none. -/
theorem scan_left_iff {found : List β} {left : Option α}
    (scanned : scan one expand opened items = some (found, left)) :
    left = none ↔ ∀ first, (ahead opened items).getLast? ≠ some (.start first) := by
  induction items generalizing opened found with
  | nil =>
      obtain ⟨rfl, rfl⟩ := Prod.mk.inj (Option.some.inj scanned)
      cases opened <;> simp [ahead, bounds]
  | cons item rest ih =>
      cases item with
      | single item =>
          obtain ⟨⟨later, left⟩, isLater, isFound⟩ := Option.map_eq_some_iff.mp scanned
          cases isFound
          exact ih isLater
      | start first =>
          obtain ⟨⟨later, left⟩, isLater, isFound⟩ := Option.map_eq_some_iff.mp scanned
          cases isFound
          rw [ih isLater]
          cases opened with
          | none => rfl
          | some earlier =>
              change _ ↔ ∀ begun,
                (Mark.start earlier :: Mark.start first :: bounds rest).getLast? ≠ _
              simp only [List.getLast?_cons_cons]
              rfl
      | finish last =>
          obtain ⟨range, isRange, isLater⟩ := Option.bind_eq_some_iff.mp scanned
          obtain ⟨⟨later, left⟩, isLater, isFound⟩ := Option.map_eq_some_iff.mp isLater
          cases isFound
          have isEnd : ∀ begun, (Mark.finish last :: ahead none rest).getLast? ≠
                some (.start begun) ↔ (ahead none rest).getLast? ≠ some (.start begun) := by
            intro begun
            cases isRest : ahead none rest with
            | nil => simp
            | cons mark marks => rw [List.getLast?_cons_cons]
          rw [ih isLater, ← forall_congr' isEnd]
          cases opened with
          | none => rfl
          | some earlier =>
              change _ ↔ ∀ begun,
                (Mark.start earlier :: Mark.finish last :: ahead none rest).getLast? ≠ _
              simp only [List.getLast?_cons_cons]

end Mark

end Foundation
