import Mathlib.Data.List.Basic

namespace Foundation

/-!
# Bounded queues

A bounded queue hands items over in the order in which they were sent.  Sending
takes room and fails without waiting when there is none.  Receiving takes an
item out; its room is given back by a step of its own, so that a receiver may be
seen between the two.  The queue itself is a parameter: only what it promises is
used.
-/

/-- A bounded queue and what it promises. -/
structure BoundedQueue (α : Type) where
  State : Type
  create : Nat → State
  items : State → List α
  room : State → Nat
  trySend : State → α → Option State
  recv : State → Option (α × State)
  release : State → State
  items_create : ∀ size, items (create size) = []
  room_create : ∀ size, room (create size) = size
  trySend_full : ∀ state item, room state = 0 → trySend state item = none
  trySend_room : ∀ state item, 0 < room state → ∃ next, trySend state item = some next ∧
      items next = items state ++ [item] ∧ room next + 1 = room state
  recv_empty : ∀ state, items state = [] → recv state = none
  recv_item : ∀ state item rest, items state = item :: rest →
    ∃ next, recv state = some (item, next) ∧ items next = rest ∧ room next = room state
  items_release : ∀ state, items (release state) = items state
  room_release : ∀ state, room (release state) = room state + 1

namespace BoundedQueue

variable {α : Type} (queue : BoundedQueue α)

theorem recv_eq_some {state next : queue.State} {item : α}
    (received : queue.recv state = some (item, next)) :
    queue.items state = item :: queue.items next ∧ queue.room next = queue.room state := by
  cases held : queue.items state with
  | nil =>
      rw [queue.recv_empty state held] at received
      cases received
  | cons first rest =>
      obtain ⟨after, isReceived, isRest, sameRoom⟩ := queue.recv_item state first rest held
      rw [isReceived] at received
      cases received
      exact ⟨congrArg (item :: ·) isRest.symm, sameRoom⟩

/-- Send items one after the other; an item for which there is no room is
dropped. -/
def sendAll (state : queue.State) (items : List α) : queue.State :=
  items.foldl (fun state item => (queue.trySend state item).getD state) state

theorem sendAll_room {state : queue.State} {items : List α}
    (enough : items.length ≤ queue.room state) :
    queue.items (queue.sendAll state items) = queue.items state ++ items ∧
      queue.room (queue.sendAll state items) + items.length = queue.room state := by
  induction items generalizing state with
  | nil => exact ⟨(List.append_nil _).symm, rfl⟩
  | cons item items ih =>
      rw [List.length_cons] at enough
      obtain ⟨next, sent, isNext, room⟩ := queue.trySend_room state item (by omega)
      have roomLeft : items.length ≤ queue.room next := by omega
      have rest := ih roomLeft
      have first : queue.sendAll state (item :: items) = queue.sendAll next items := by
        rw [sendAll, List.foldl_cons, sent]
        rfl
      rw [first, rest.1, isNext, List.append_assoc, List.length_cons]
      exact ⟨rfl, by omega⟩

end BoundedQueue

/-- A list and a count of room promise what a bounded queue does. -/
def listQueue (α : Type) : BoundedQueue α where
  State := List α × Nat
  create size := ([], size)
  items := Prod.fst
  room := Prod.snd
  trySend state item :=
    match state.2 with
    | 0 => none
    | room + 1 => some (state.1 ++ [item], room)
  recv state :=
    match state.1 with
    | [] => none
    | item :: rest => some (item, rest, state.2)
  release state := (state.1, state.2 + 1)
  items_create _ := rfl
  room_create _ := rfl
  trySend_full := by
    rintro ⟨items, room⟩ item full
    cases full
    rfl
  trySend_room := by
    rintro ⟨items, room⟩ item free
    cases room with
    | zero => cases free
    | succ room => exact ⟨_, rfl, rfl, rfl⟩
  recv_empty := by
    rintro ⟨items, room⟩ empty
    cases empty
    rfl
  recv_item := by
    rintro ⟨items, room⟩ item rest held
    cases held
    exact ⟨_, rfl, rfl, rfl⟩
  items_release _ := rfl
  room_release _ := rfl

end Foundation
