import Nlink.Foundation.PollStream

namespace Nlink.Netlink.Resync

open Foundation

/-!
# The resync stream

`ResyncStream` passes the events of an inner stream on.  When the inner stream
reports that the kernel dropped events, it takes a snapshot and yields it
between two markers.  The inner stream is any that is polled, and the snapshots
are a sequence, one for each call of the caller's closure.
-/

/-- Boundaries of a resync window. -/
inductive ResyncMarker where
  | resyncStart
  | resyncEnd

/-- An item of a resync-aware stream. -/
inductive ResyncedEvent (α : Type u) where
  | event (item : α)
  | resynced (item : α)
  | marker (marker : ResyncMarker)

/-- A snapshot's future: how often it is still pending, and its result. -/
structure Snapshot (ε : Type u) (α : Type v) where
  pendings : Nat
  result : Except ε (List α)

/-- The state of the resync stream's own machine. -/
inductive ResyncState (ε : Type u) (α : Type v) where
  | forwarding
  | runningSnapshot (future : Snapshot ε α)
  | replaying (items : List α) (didEmitStart : Bool)
  | done

/-- The stream: its inner stream, how often it has called the closure, and its
own state. -/
structure ResyncStream (σ : Type u) (ε : Type v) (α : Type w) where
  inner : σ
  resyncs : Nat
  state : ResyncState ε α

/-- What polling the stream returns. -/
abbrev Item (ε : Type u) (α : Type v) := Except ε (ResyncedEvent α)

section

variable {σ : Type u} {ε : Type v} {α : Type w}
variable (isNoBufferSpace : ε → Bool)
variable (resync : Nat → Snapshot ε α)
variable (pollInner : σ → Poll (Option (Except ε α)) × σ)

namespace ResyncStream

/-- The arm of a stream that replays a snapshot. -/
def pollReplaying (stream : ResyncStream σ ε α) (items : List α) (didEmitStart : Bool) :
    Poll (Option (Item ε α)) × ResyncStream σ ε α :=
  if !didEmitStart then
    (.ready (some (.ok (.marker .resyncStart))), { stream with state := .replaying items true })
  else
    match items with
    | item :: items =>
        (.ready (some (.ok (.resynced item))), { stream with state := .replaying items true })
    | [] => (.ready (some (.ok (.marker .resyncEnd))), { stream with state := .forwarding })

/-- The arm of a stream that waits for a snapshot. -/
def pollRunningSnapshot (stream : ResyncStream σ ε α) (future : Snapshot ε α) :
    Poll (Option (Item ε α)) × ResyncStream σ ε α :=
  match future.pendings with
  | 0 =>
      match future.result with
      | .ok items => pollReplaying stream items false
      | .error error => (.ready (some (.error error)), { stream with state := .done })
  | pendings + 1 =>
      (.pending, { stream with state := .runningSnapshot { future with pendings := pendings } })

/-- The arm of a stream that forwards events. -/
def pollForwarding (stream : ResyncStream σ ε α) : Poll (Option (Item ε α)) × ResyncStream σ ε α :=
  match pollInner stream.inner with
  | (.ready (some (.ok item)), inner) =>
      (.ready (some (.ok (.event item))), { stream with inner := inner, state := .forwarding })
  | (.ready (some (.error error)), inner) =>
      if isNoBufferSpace error then
        -- The loop goes round at once to drive the snapshot.
        pollRunningSnapshot { stream with inner := inner, resyncs := stream.resyncs + 1 }
          (resync stream.resyncs)
      else
        (.ready (some (.error error)), { stream with inner := inner, state := .done })
  | (.ready none, inner) => (.ready none, { stream with inner := inner, state := .done })
  | (.pending, inner) => (.pending, { stream with inner := inner, state := .forwarding })

/-- `poll_next`. -/
def pollNext (stream : ResyncStream σ ε α) : Poll (Option (Item ε α)) × ResyncStream σ ε α :=
  match stream.state with
  | .done => (.ready none, stream)
  | .forwarding => pollForwarding isNoBufferSpace resync pollInner stream
  | .runningSnapshot future => pollRunningSnapshot stream future
  | .replaying items didEmitStart => pollReplaying stream items didEmitStart

end ResyncStream

/-- `events_with_resync`. -/
def eventsWithResync (events : σ) : ResyncStream σ ε α where
  inner := events
  resyncs := 0
  state := .forwarding

end

/-!
## What the stream yields

Each event is passed on, each overflow becomes a window with the snapshot's
items, and any other error is the last item.
-/

section

variable {σ : Type u} {ε : Type v} {α : Type w}

/-- A snapshot between its markers. -/
def window (items : List α) : List (Item ε α) :=
  .ok (.marker .resyncStart) ::
    (items.map (fun item => .ok (.resynced item)) ++ [.ok (.marker .resyncEnd)])

variable (isNoBufferSpace : ε → Bool)
variable (resync : Nat → Snapshot ε α)

/-- What the stream makes of the items of its inner stream, when it has called
the closure so many times. -/
def resynced : Nat → List (Except ε α) → List (Item ε α)
  | _, [] => []
  | resyncs, .ok item :: rest => .ok (.event item) :: resynced resyncs rest
  | resyncs, .error error :: rest =>
      if isNoBufferSpace error then
        match (resync resyncs).result with
        | .ok items => window items ++ resynced (resyncs + 1) rest
        | .error error => [.error error]
      else
        [.error error]

/-- Whether the stream ends after the items of its inner stream: with that
stream, with an error of its own, or with a failed snapshot. -/
def resyncedEnds (innerEnds : Bool) : Nat → List (Except ε α) → Bool
  | _, [] => innerEnds
  | resyncs, .ok _ :: rest => resyncedEnds innerEnds resyncs rest
  | resyncs, .error error :: rest =>
      if isNoBufferSpace error then
        match (resync resyncs).result with
        | .ok _ => resyncedEnds innerEnds (resyncs + 1) rest
        | .error _ => true
      else
        true

/-- How many polls a snapshot takes at most. -/
def Snapshot.cost (snapshot : Snapshot ε α) : Nat :=
  snapshot.pendings +
    match snapshot.result with
    | .ok items => items.length + 2
    | .error _ => 1

/-- How many polls the snapshots for the inner items take at most. -/
def resyncCost : Nat → List (Except ε α) → Nat
  | _, [] => 0
  | resyncs, .ok _ :: rest => resyncCost resyncs rest
  | resyncs, .error error :: rest =>
      if isNoBufferSpace error then (resync resyncs).cost + resyncCost (resyncs + 1) rest else 0

namespace ResyncStream

variable (innerDue : σ → List (Except ε α))
variable (innerEnds : σ → Bool)
variable (innerMeasure : σ → Nat)

/-- What the stream yields once its own state is back to forwarding. -/
def later (stream : ResyncStream σ ε α) : List (Item ε α) :=
  resynced isNoBufferSpace resync stream.resyncs (innerDue stream.inner)

def laterEnds (stream : ResyncStream σ ε α) : Bool :=
  resyncedEnds isNoBufferSpace resync (innerEnds stream.inner) stream.resyncs
    (innerDue stream.inner)

/-- What the stream still yields. -/
def due (stream : ResyncStream σ ε α) : List (Item ε α) :=
  match stream.state with
  | .forwarding => stream.later isNoBufferSpace resync innerDue
  | .runningSnapshot future =>
      match future.result with
      | .ok items => window items ++ stream.later isNoBufferSpace resync innerDue
      | .error error => [.error error]
  | .replaying items didEmitStart =>
      (if didEmitStart then (window items).tail else window items) ++
        stream.later isNoBufferSpace resync innerDue
  | .done => []

/-- Whether the stream then ends. -/
def ends (stream : ResyncStream σ ε α) : Bool :=
  match stream.state with
  | .forwarding | .replaying _ _ => stream.laterEnds isNoBufferSpace resync innerDue innerEnds
  | .runningSnapshot future =>
      match future.result with
      | .ok _ => stream.laterEnds isNoBufferSpace resync innerDue innerEnds
      | .error _ => true
  | .done => true

/-- How many polls the stream takes at most once it is back to forwarding. -/
def laterMeasure (stream : ResyncStream σ ε α) : Nat :=
  innerMeasure stream.inner +
    resyncCost isNoBufferSpace resync stream.resyncs (innerDue stream.inner)

/-- How many polls all this takes at most. -/
def measure (stream : ResyncStream σ ε α) : Nat :=
  match stream.state with
  | .forwarding => stream.laterMeasure isNoBufferSpace resync innerDue innerMeasure
  | .runningSnapshot future =>
      future.cost + stream.laterMeasure isNoBufferSpace resync innerDue innerMeasure
  | .replaying items didEmitStart =>
      (items.length + if didEmitStart then 1 else 2) +
        stream.laterMeasure isNoBufferSpace resync innerDue innerMeasure
  | .done => 0

variable {isNoBufferSpace resync innerDue innerEnds innerMeasure}
variable {pollInner : σ → Poll (Option (Except ε α)) × σ}

/-- What polling the stream is to do with what is due. -/
abbrev Polls (isNoBufferSpace : ε → Bool) (resync : Nat → Snapshot ε α)
    (pollInner : σ → Poll (Option (Except ε α)) × σ)
    (innerDue : σ → List (Except ε α)) (innerEnds : σ → Bool)
    (innerMeasure : σ → Nat) :=
  Advances (pollNext isNoBufferSpace resync pollInner) (due isNoBufferSpace resync innerDue)
    (ends isNoBufferSpace resync innerDue innerEnds)
    (measure isNoBufferSpace resync innerDue innerMeasure)

theorem fused_done (inner : σ) (resyncs : Nat) : Fused (pollNext isNoBufferSpace resync pollInner)
      { inner := inner, resyncs := resyncs, state := .done } :=
  fused_of_fixed rfl

theorem pollReplaying_advances (stream : ResyncStream σ ε α) (items : List α)
    (didEmitStart : Bool) :
    Polls isNoBufferSpace resync pollInner innerDue innerEnds innerMeasure
      ((if didEmitStart then (window items).tail else window items) ++
        stream.later isNoBufferSpace resync innerDue)
      (stream.laterEnds isNoBufferSpace resync innerDue innerEnds)
      ((items.length + if didEmitStart then 1 else 2) +
        stream.laterMeasure isNoBufferSpace resync innerDue innerMeasure)
      (pollReplaying stream items didEmitStart) := by
  cases didEmitStart with
  | false => exact ⟨rfl, rfl, Nat.add_lt_add_right (Nat.lt_succ_self _) _⟩
  | true =>
      cases items with
      | nil =>
          refine ⟨rfl, rfl, ?_⟩
          exact Nat.lt_add_of_pos_left Nat.one_pos
      | cons item items => exact ⟨rfl, rfl, Nat.add_lt_add_right (Nat.lt_succ_self _) _⟩

theorem pollRunningSnapshot_advances (stream : ResyncStream σ ε α) (future : Snapshot ε α) :
    Polls isNoBufferSpace resync pollInner innerDue innerEnds innerMeasure
      (due isNoBufferSpace resync innerDue { stream with state := .runningSnapshot future })
      (ends isNoBufferSpace resync innerDue innerEnds
        { stream with state := .runningSnapshot future })
      (future.cost + stream.laterMeasure isNoBufferSpace resync innerDue innerMeasure)
      (pollRunningSnapshot stream future) := by
  obtain ⟨pendings, result⟩ := future
  cases pendings with
  | zero =>
      cases result with
      | ok items =>
          have replays : Polls isNoBufferSpace resync pollInner innerDue innerEnds
                innerMeasure _ _ _ (pollReplaying stream items false) :=
            pollReplaying_advances stream items false
          rw [Snapshot.cost, Nat.zero_add]
          exact replays
      | error error =>
          refine ⟨rfl, rfl, ?_⟩
          exact Nat.lt_add_right _ Nat.one_pos
  | succ pendings =>
      refine ⟨rfl, rfl, Or.inl ?_⟩
      refine Nat.add_lt_add_right ?_ _
      simp only [Snapshot.cost]
      exact Nat.add_lt_add_right (Nat.lt_succ_self pendings) _

theorem pollForwarding_advances (inner : Yields pollInner innerDue innerEnds innerMeasure)
    (stream : ResyncStream σ ε α) :
    Polls isNoBufferSpace resync pollInner innerDue innerEnds innerMeasure
      (stream.later isNoBufferSpace resync innerDue)
      (stream.laterEnds isNoBufferSpace resync innerDue innerEnds)
      (stream.laterMeasure isNoBufferSpace resync innerDue innerMeasure)
      (pollForwarding isNoBufferSpace resync pollInner stream) := by
  rcases polled : pollInner stream.inner with ⟨result, next⟩
  simp only [later, laterEnds, laterMeasure, pollForwarding, polled]
  cases result with
  | pending =>
      obtain ⟨same, sameEnd, progress⟩ := inner.pending polled
      rw [same, sameEnd]
      refine ⟨rfl, rfl, ?_⟩
      rcases progress with smaller | ⟨nothing, endless⟩
      · left
        exact Nat.add_lt_add_right smaller _
      · right
        rw [same] at nothing
        rw [sameEnd] at endless
        rw [nothing, endless]
        exact ⟨rfl, rfl⟩
  | ready item =>
      rcases item with _ | error | item
      · obtain ⟨nothing, _, isEnd, _⟩ := inner.finished polled
        rw [nothing, isEnd]
        exact ⟨rfl, rfl, rfl, fused_done next stream.resyncs⟩
      · obtain ⟨same, sameEnd, smaller⟩ := inner.item polled
        rw [same, sameEnd]
        by_cases overflow : isNoBufferSpace error
        · simp only [overflow, if_true, resynced, resyncedEnds, resyncCost]
          have snapshot : Polls isNoBufferSpace resync pollInner innerDue innerEnds
                innerMeasure _ _ _
                (pollRunningSnapshot { stream with inner := next, resyncs := stream.resyncs + 1 }
                  (resync stream.resyncs)) :=
            pollRunningSnapshot_advances _ (resync stream.resyncs)
          refine snapshot.mono ?_
          simp only [laterMeasure]
          omega
        · simp only [overflow, Bool.false_eq_true, if_false, resynced, resyncedEnds, resyncCost]
          exact ⟨rfl, rfl, Nat.lt_of_le_of_lt (Nat.zero_le _) smaller⟩
      · obtain ⟨same, sameEnd, smaller⟩ := inner.item polled
        rw [same, sameEnd]
        exact ⟨rfl, rfl, Nat.add_lt_add_right smaller _⟩

theorem yields_pollNext (inner : Yields pollInner innerDue innerEnds innerMeasure) :
    Yields (pollNext isNoBufferSpace resync pollInner) (due isNoBufferSpace resync innerDue)
      (ends isNoBufferSpace resync innerDue innerEnds)
      (measure isNoBufferSpace resync innerDue innerMeasure) where
  advances := by
    rintro ⟨innerState, resyncs, state⟩
    cases state with
    | forwarding => exact pollForwarding_advances inner _
    | runningSnapshot future =>
        exact pollRunningSnapshot_advances ⟨innerState, resyncs, .runningSnapshot future⟩ future
    | replaying items didEmitStart => exact pollReplaying_advances _ items didEmitStart
    | done => exact ⟨rfl, rfl, rfl, fused_done innerState resyncs⟩

end ResyncStream

theorem eventsWithResync_yieldsExactly (script : List (Poll (Option (Except ε α)))) :
    YieldsExactly (ResyncStream.pollNext isNoBufferSpace resync pollScript)
      (eventsWithResync script) (resynced isNoBufferSpace resync 0 (scriptItems script))
      (resyncedEnds isNoBufferSpace resync (scriptEnds script) 0 (scriptItems script)) :=
  (ResyncStream.yields_pollNext yields_pollScript).yieldsExactly (eventsWithResync script)

/-!
## How the stream moves between windows

The items follow each other as the machine's states do: a window's items come
between its markers, and nothing comes after an error.
-/

/-- Where the stream stands, as far as its items tell. -/
inductive Phase where
  | live
  | inWindow
  | over

def ResyncState.phase : ResyncState ε α → Phase
  | .forwarding | .runningSnapshot _ | .replaying _ false => .live
  | .replaying _ true => .inWindow
  | .done => .over

/-- What a poll may return in a phase, and the phase after it. -/
inductive Emits : Phase → Poll (Option (Item ε α)) → Phase → Prop
  | pending : Emits .live .pending .live
  | event (item : α) : Emits .live (.ready (some (.ok (.event item)))) .live
  | error (error : ε) : Emits .live (.ready (some (.error error))) .over
  | finished : Emits .live (.ready none) .over
  | resyncStart : Emits .live (.ready (some (.ok (.marker .resyncStart)))) .inWindow
  | resynced (item : α) : Emits .inWindow (.ready (some (.ok (.resynced item)))) .inWindow
  | resyncEnd : Emits .inWindow (.ready (some (.ok (.marker .resyncEnd)))) .live
  | fused : Emits .over (.ready none) .over

namespace ResyncStream

theorem pollRunningSnapshot_emits (stream : ResyncStream σ ε α) (future : Snapshot ε α) :
    Emits .live (pollRunningSnapshot stream future).1
      (pollRunningSnapshot stream future).2.state.phase := by
  obtain ⟨pendings, result⟩ := future
  cases pendings with
  | zero =>
      cases result with
      | ok items => exact .resyncStart
      | error error => exact .error error
  | succ pendings => exact .pending

theorem pollNext_emits (pollInner : σ → Poll (Option (Except ε α)) × σ)
    (stream : ResyncStream σ ε α) :
    Emits stream.state.phase (pollNext isNoBufferSpace resync pollInner stream).1
      (pollNext isNoBufferSpace resync pollInner stream).2.state.phase := by
  obtain ⟨inner, resyncs, state⟩ := stream
  cases state with
  | forwarding =>
      rcases polled : pollInner inner with ⟨result, next⟩
      simp only [pollNext, pollForwarding, polled]
      cases result with
      | pending => exact .pending
      | ready item =>
          rcases item with _ | error | item
          · exact .finished
          · by_cases overflow : isNoBufferSpace error
            · simp only [overflow, if_true]
              exact pollRunningSnapshot_emits _ _
            · simp only [overflow, Bool.false_eq_true, if_false]
              exact .error error
          · exact .event item
  | runningSnapshot future => exact pollRunningSnapshot_emits _ future
  | replaying items didEmitStart =>
      cases didEmitStart with
      | false => exact .resyncStart
      | true =>
          cases items with
          | nil => exact .resyncEnd
          | cons item items => exact .resynced item
  | done => exact .fused

end ResyncStream

end

end Nlink.Netlink.Resync
