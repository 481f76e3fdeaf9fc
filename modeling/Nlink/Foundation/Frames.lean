import Mathlib.Data.List.Basic

namespace Foundation

open List

/-!
# Frames in a buffer

An iterator over a buffer yields frames one behind the other, each padded, until
it yields nothing any more.  The padding of the last frame may be cut off by the
end of the buffer.
-/

/-- A part of a buffer. -/
structure Slice where
  start : Nat
  len : Nat
  deriving DecidableEq

namespace Slice

/-- The position behind a slice. -/
def stop (slice : Slice) : Nat :=
  slice.start + slice.len

def bytes (buffer : List α) (slice : Slice) : List α :=
  (buffer.drop slice.start).take slice.len

def whole (buffer : List α) : Slice where
  start := 0
  len := buffer.length

/-- A slice without anything. -/
def empty : Slice where
  start := 0
  len := 0

/-- `slice[first..last]`; there is none where that panics. -/
def sub? (slice : Slice) (first last : Nat) : Option Slice :=
  if first ≤ last ∧ last ≤ slice.len then
    some { start := slice.start + first, len := last - first }
  else
    none

/-- A range inside a slice is a slice of the same buffer. -/
theorem sub?_eq_some {slice : Slice} {first last : Nat} (inside : first ≤ last ∧ last ≤ slice.len) :
    slice.sub? first last = some { start := slice.start + first, len := last - first } :=
  if_pos inside

theorem bytes_length {buffer : List α} {slice : Slice} (inside : slice.stop ≤ buffer.length) :
    (slice.bytes buffer).length = slice.len := by
  rw [stop] at inside
  rw [bytes, length_take, length_drop]
  omega

end Slice

section Iterators

variable {σ ι : Type}

/-- The calls of an iterator's `next` until it gives nothing: the items, and the
state that is left. -/
inductive Drains (next : σ → Option (Option ι × σ)) : σ → List ι → σ → Prop
  | done {state : σ} (ends : next state = some (none, state)) : Drains next state [] state
  | item {state later last : σ} {item : ι} {items : List ι}
      (yields : next state = some (some item, later)) (rest : Drains next later items last) :
      Drains next state (item :: items) last

/-- So many calls of `next`, up to the first that gives nothing; there is no
result if a call panics. -/
def drain (next : σ → Option (Option ι × σ)) : Nat → σ → Option (List ι × σ)
  | 0, state => some ([], state)
  | calls + 1, state =>
      match next state with
      | none => none
      | some (none, later) => some ([], later)
      | some (some item, later) =>
          (drain next calls later).map fun (items, last) => (item :: items, last)

variable {next : σ → Option (Option ι × σ)} {state last : σ} {items : List ι}

/-- Behind the last item there is nothing. -/
theorem Drains.ends (drains : Drains next state items last) : next last = some (none, last) := by
  induction drains with
  | done ends => exact ends
  | item yields rest ih => exact ih

/-- More calls than there are items change nothing. -/
theorem Drains.drain_eq (drains : Drains next state items last) {calls : Nat}
    (enough : items.length < calls) : drain next calls state = some (items, last) := by
  induction drains generalizing calls with
  | done ends =>
      obtain ⟨calls, rfl⟩ := Nat.exists_eq_succ_of_ne_zero (Nat.ne_zero_of_lt enough)
      rw [drain, ends]
  | item yields rest ih =>
      obtain ⟨calls, rfl⟩ := Nat.exists_eq_succ_of_ne_zero (Nat.ne_zero_of_lt enough)
      rw [drain, yields]
      simp only
      rw [ih (Nat.lt_of_succ_lt_succ enough)]
      rfl

/-- An iterator ends if each item that it yields leaves less. -/
theorem exists_drains {Valid : σ → Prop} {measure : σ → Nat}
    (step : ∀ state, Valid state → next state = some (none, state) ∨
      ∃ item later, next state = some (some item, later) ∧ Valid later ∧
        measure later < measure state)
    (valid : Valid state) :
    ∃ items last, Drains next state items last ∧ items.length ≤ measure state := by
  induction size : measure state using Nat.strongRecOn generalizing state with
  | ind size ih =>
      subst size
      rcases step state valid with ends | ⟨item, later, yields, laterValid, less⟩
      · exact ⟨[], state, .done ends, Nat.zero_le _⟩
      · obtain ⟨items, last, drains, few⟩ := ih (measure later) less laterValid rfl
        exact ⟨item :: items, last, .item yields drains, Nat.lt_of_le_of_lt few less⟩

end Iterators

section Tiles

/-- Frames lie one behind the other from a position up to another one, with the
padding that a frame has by its length. -/
inductive Tiles (padded : Nat → Nat) (size : Nat) : Nat → List Slice → Nat → Prop
  | nil (position : Nat) : Tiles padded size position [] position
  | cons {frame : Slice} {frames : List Slice} {last : Nat} (inside : frame.stop ≤ size)
      (rest : Tiles padded size (min (frame.start + padded frame.len) size) frames last) :
      Tiles padded size frame.start (frame :: frames) last

variable {padded : Nat → Nat} (grows : ∀ len, len ≤ padded len) {size first last : Nat}
  {frames : List Slice}

include grows

namespace Tiles

theorem stop_le {frame : Slice} (inside : frame.stop ≤ size) :
    frame.stop ≤ min (frame.start + padded frame.len) size :=
  Nat.le_min.mpr ⟨Nat.add_le_add_left (grows frame.len) frame.start, inside⟩

theorem le (tiles : Tiles padded size first frames last) : first ≤ last := by
  induction tiles with
  | nil position => exact Nat.le_refl position
  | @cons frame frames last inside rest ih =>
      have start : frame.start ≤ frame.stop := Nat.le_add_right _ _
      exact Nat.le_trans start (Nat.le_trans (stop_le grows inside) ih)

omit grows in
theorem last_le (tiles : Tiles padded size first frames last) (inside : first ≤ size) :
    last ≤ size := by
  induction tiles with
  | nil position => exact inside
  | cons _ _ ih => exact ih (Nat.min_le_right _ _)

theorem start_le (tiles : Tiles padded size first frames last) {frame : Slice}
    (member : frame ∈ frames) : first ≤ frame.start ∧ frame.stop ≤ size := by
  induction tiles with
  | nil => cases member
  | @cons head frames last inside rest ih =>
      rcases mem_cons.mp member with rfl | later
      · exact ⟨Nat.le_refl _, inside⟩
      · have start : head.start ≤ head.stop := Nat.le_add_right _ _
        have behind := ih later
        exact ⟨Nat.le_trans start (Nat.le_trans (stop_le grows inside) behind.1), behind.2⟩

/-- Frames do not overlap, and later ones are further behind. -/
theorem pairwise (tiles : Tiles padded size first frames last) :
    frames.Pairwise fun before after => before.stop ≤ after.start := by
  induction tiles with
  | nil => exact List.Pairwise.nil
  | @cons frame frames last inside rest ih =>
      refine pairwise_cons.mpr ⟨fun after member => ?_, ih⟩
      exact Nat.le_trans (stop_le grows inside) (start_le grows rest member).1

end Tiles

omit grows in
/-- Pieces one behind the other, each with the padding that it has by its
length.  The padding of the last one may be cut off. -/
inductive Padded (padded : Nat → Nat) : List (List α) → List α → Prop
  | nil : Padded padded [] []
  | last {piece pad : List α} (room : piece.length + pad.length ≤ padded piece.length) :
      Padded padded [piece] (piece ++ pad)
  | cons {piece pad behind : List α} {pieces : List (List α)}
      (full : piece.length + pad.length = padded piece.length)
      (rest : Padded padded pieces behind) :
      Padded padded (piece :: pieces) (piece ++ pad ++ behind)

omit grows in
/-- A part of a buffer, cut in two. -/
theorem bytes_append (buffer : List α) {middle : Nat} (firstLe : first ≤ middle)
    (middleLe : middle ≤ last) :
    (buffer.take last).drop first =
      Slice.bytes buffer { start := first, len := middle - first } ++
        (buffer.take last).drop middle := by
  have behind : first + (middle - first) = middle := Nat.add_sub_cancel' firstLe
  have length : last - first = (middle - first) + (last - middle) := by omega
  rw [drop_take, drop_take, Slice.bytes, length, take_add, drop_drop, behind]

/-- What tiles cover are their frames with padding. -/
theorem Tiles.padded_bytes {buffer : List α} (tiles : Tiles padded buffer.length first frames last)
    (positive : ∀ frame ∈ frames, 0 < frame.len) :
    Padded padded (frames.map (Slice.bytes buffer)) ((buffer.take last).drop first) := by
  induction tiles with
  | nil position =>
      rw [drop_of_length_le (length_take_le _ _)]
      exact Padded.nil
  | @cons frame frames last inside rest ih =>
      obtain ⟨framePositive, restPositive⟩ := forall_mem_cons.mp positive
      have behind := ih restPositive
      have middleLe := Tiles.le grows rest
      have lastLe := Tiles.last_le rest (Nat.min_le_right _ _)
      have stopLe := Tiles.stop_le grows inside
      have length := Slice.bytes_length inside
      have isStop : frame.stop = frame.start + frame.len := rfl
      have startLe : frame.start ≤ frame.stop := Nat.le_add_right _ _
      generalize isMiddle : min (frame.start + padded frame.len) buffer.length = middle at *
      have isPad : (Slice.bytes buffer { start := frame.stop, len := middle - frame.stop }).length =
          middle - frame.stop :=
        Slice.bytes_length (by
          change frame.stop + (middle - frame.stop) ≤ buffer.length
          omega)
      have isFrame : Slice.bytes buffer { start := frame.start, len := frame.stop - frame.start } =
          frame.bytes buffer := by
        rw [isStop, Nat.add_sub_cancel_left]
      rw [bytes_append buffer startLe (Nat.le_trans stopLe middleLe), isFrame,
        bytes_append buffer stopLe middleLe, map_cons, ← List.append_assoc]
      by_cases full : frame.start + padded frame.len ≤ buffer.length
      · refine Padded.cons ?_ behind
        rw [length, isPad]
        omega
      · -- the buffer ends within the padding, so there is no room for a frame behind it
        have noFrames : frames = [] := by
          cases rest with
          | nil => rfl
          | @cons later others _ laterInside _ =>
              have laterPositive := restPositive later mem_cons_self
              have isLater : later.stop = later.start + later.len := rfl
              omega
        subst noFrames
        cases rest
        rw [drop_of_length_le (length_take_le _ _), List.append_nil]
        refine Padded.last ?_
        rw [length, isPad]
        omega

/-- Frames one behind the other from the start of a buffer: each is in it, they do
not overlap, and the later one is further behind. -/
structure Laid (padded : Nat → Nat) (size : Nat) (frames : List Slice) (covered : Nat) : Prop where
  consecutive : Tiles padded size 0 frames covered
  inside : covered ≤ size ∧ ∀ frame ∈ frames, 0 < frame.len ∧ frame.stop ≤ size
  ordered : frames.Pairwise fun before after => before.stop ≤ after.start

theorem Tiles.laid (tiles : Tiles padded size 0 frames last)
    (positive : ∀ frame ∈ frames, 0 < frame.len) :
    Laid padded size frames last where
  consecutive := tiles
  inside :=
    ⟨Tiles.last_le tiles (Nat.zero_le size), fun frame member =>
      ⟨positive frame member, (Tiles.start_le grows tiles member).2⟩⟩
  ordered := Tiles.pairwise grows tiles

end Tiles

end Foundation
