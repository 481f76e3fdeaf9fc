import Nlink.DispatcherRouting
import Nlink.Resync

namespace Nlink.Netlink.Stream

open Foundation Resync

/-!
# Event streams in both receive modes

In the default mode an event stream holds the request lock and polls the socket
itself.  In dispatcher mode it polls the channel that the driver fans
notifications out to.  Either way each poll yields the head of the events that
were parsed last, or takes the next datagram from its source.
-/

/-- An error of a receive. -/
inductive RecvError where
  | noBufferSpace
  | other (message : String)

/-- `is_no_buffer_space`. -/
def RecvError.isNoBufferSpace : RecvError → Bool
  | .noBufferSpace => true
  | .other _ => false

abbrev Received := Except RecvError Datagram

/-- An event stream: the results of the polls of its source to come, the parsed
events not yet yielded, and whether the source has closed.  A socket never
closes, and a channel carries no errors. -/
structure EventStream (α : Type u) where
  source : List (Poll (Option Received))
  pending : List α
  terminated : Bool

section

variable {α : Type u}
variable (parseEvents : Datagram → List α)
variable (fatalError : RecvError)

/-- The loop that takes datagrams from the source until one has an event. -/
def pollSource : List (Poll (Option Received)) → Poll (Option (Except RecvError α)) × EventStream α
  | [] => (.pending, { source := [], pending := [], terminated := false })
  | .pending :: rest => (.pending, { source := rest, pending := [], terminated := false })
  | .ready none :: rest =>
      (.ready (some (.error fatalError)), { source := rest, pending := [], terminated := true })
  | .ready (some (.error error)) :: rest =>
      (.ready (some (.error error)), { source := rest, pending := [], terminated := false })
  | .ready (some (.ok data)) :: rest =>
      match parseEvents data with
      | event :: events =>
          (.ready (some (.ok event)), { source := rest, pending := events, terminated := false })
      | [] =>
          -- No event in this batch: keep polling.
          pollSource rest

/-- `poll_event_backend`. -/
def pollEventBackend (stream : EventStream α) :
    Poll (Option (Except RecvError α)) × EventStream α :=
  match stream.pending with
  | event :: events => (.ready (some (.ok event)), { stream with pending := events })
  | [] =>
      if stream.terminated then
        (.ready none, stream)
      else
        pollSource parseEvents fatalError stream.source

/-- A stream over a source, before any poll. -/
def EventStream.new (source : List (Poll (Option Received))) : EventStream α where
  source := source
  pending := []
  terminated := false

/-- The items that what was received amounts to. -/
def streamItems (received : List Received) : List (Except RecvError α) :=
  received.flatMap fun result =>
    match result with
    | .ok data => (parseEvents data).map .ok
    | .error error => [.error error]

theorem streamItems_append (first second : List Received) :
    streamItems parseEvents (first ++ second) =
      streamItems parseEvents first ++ streamItems parseEvents second :=
  List.flatMap_append

/-- The items of a source; when it closes, the fatal error is the last. -/
def sourceItems : List (Poll (Option Received)) → List (Except RecvError α)
  | [] => []
  | .pending :: rest => sourceItems rest
  | .ready none :: _ => [.error fatalError]
  | .ready (some result) :: rest => streamItems parseEvents [result] ++ sourceItems rest

/-- How many polls a source takes at most. -/
def sourceMeasure : List (Poll (Option Received)) → Nat
  | [] => 0
  | .ready (some (.ok data)) :: rest => (parseEvents data).length + 1 + sourceMeasure rest
  | _ :: rest => 1 + sourceMeasure rest

namespace EventStream

/-- What a stream still yields. -/
def due (stream : EventStream α) : List (Except RecvError α) :=
  stream.pending.map .ok ++
    if stream.terminated then []
    else sourceItems parseEvents fatalError stream.source

/-- Whether a stream then ends. -/
def ends (stream : EventStream α) : Bool :=
  stream.terminated || scriptEnds stream.source

/-- How many polls all this takes at most. -/
def measure (stream : EventStream α) : Nat :=
  stream.pending.length + sourceMeasure parseEvents stream.source

end EventStream

theorem pollSource_advances (source : List (Poll (Option Received))) :
    Advances (pollEventBackend parseEvents fatalError)
      (EventStream.due parseEvents fatalError) EventStream.ends
      (EventStream.measure parseEvents)
      (sourceItems parseEvents fatalError source) (scriptEnds source)
      (sourceMeasure parseEvents source)
      (pollSource parseEvents fatalError source) := by
  induction source with
  | nil => exact ⟨rfl, rfl, Or.inr ⟨rfl, rfl⟩⟩
  | cons result rest ih =>
      rcases result with _ | _ | error | data
      · refine ⟨rfl, rfl, Or.inl ?_⟩
        simp [EventStream.measure, sourceMeasure]
      · refine ⟨rfl, rfl, ?_⟩
        simp [EventStream.measure, sourceMeasure]
      · refine ⟨rfl, rfl, ?_⟩
        simp [EventStream.measure, sourceMeasure]
      · cases parsed : parseEvents data with
        | nil =>
            simp only [pollSource, parsed]
            have items : sourceItems parseEvents fatalError (.ready (some (.ok data)) :: rest) =
                  sourceItems parseEvents fatalError rest := by
              simp [sourceItems, streamItems, parsed]
            rw [items]
            refine ih.mono ?_
            simp [sourceMeasure]
        | cons event events =>
            simp only [pollSource, parsed]
            refine ⟨?_, rfl, ?_⟩
            · simp [sourceItems, streamItems, parsed, EventStream.due]
            · simp only [EventStream.measure, sourceMeasure, parsed, List.length_cons]
              omega

theorem yields_pollEventBackend : Yields (pollEventBackend parseEvents fatalError)
      (EventStream.due parseEvents fatalError) EventStream.ends
      (EventStream.measure parseEvents) where
  advances := by
    rintro ⟨source, pending, terminated⟩
    cases pending with
    | cons event events =>
        refine ⟨rfl, rfl, ?_⟩
        simp [EventStream.measure]
    | nil =>
        cases terminated with
        | true => exact ⟨rfl, rfl, rfl, fused_of_fixed rfl⟩
        | false =>
            have polled := pollSource_advances parseEvents fatalError source
            simpa [pollEventBackend, EventStream.due, EventStream.ends,
              EventStream.measure] using polled

/-- The source of a stream that was handed these results, with polls that found
nothing in between. -/
def Delivers (source : List (Poll (Option Received))) (received : List Received) : Prop :=
  source.filterMap (fun result =>
    match result with
    | .pending => none
    | .ready item => some item) = received.map some

variable {source : List (Poll (Option Received))} {received : List Received}

theorem sourceItems_of_delivers (delivers : Delivers source received) :
    sourceItems parseEvents fatalError source = streamItems parseEvents received ∧
      scriptEnds source = false := by
  induction source generalizing received with
  | nil =>
      cases received with
      | nil => exact ⟨rfl, rfl⟩
      | cons result rest => cases delivers
  | cons result rest ih =>
      cases result with
      | pending => exact ih delivers
      | ready item =>
          cases received with
          | nil => cases delivers
          | cons first others =>
              obtain ⟨rfl, later⟩ := List.cons.inj delivers
              obtain ⟨items, endless⟩ := ih later
              constructor
              · rw [sourceItems, items, ← streamItems_append]
                rfl
              · simpa [scriptEnds] using endless

theorem eventStream_yieldsExactly (delivers : Delivers source received) :
    YieldsExactly (pollEventBackend parseEvents fatalError)
      (EventStream.new source) (streamItems parseEvents received) false := by
  have exactly :=
    (yields_pollEventBackend parseEvents fatalError).yieldsExactly (EventStream.new source)
  obtain ⟨items, endless⟩ := sourceItems_of_delivers parseEvents fatalError delivers
  simpa [EventStream.due, EventStream.ends, EventStream.new, items, endless] using exactly

theorem eventStream_resync_yieldsExactly (resync : Nat → Snapshot RecvError α)
    (delivers : Delivers source received) :
    YieldsExactly
      (ResyncStream.pollNext RecvError.isNoBufferSpace resync
        (pollEventBackend parseEvents fatalError))
      (eventsWithResync (EventStream.new source))
      (resynced RecvError.isNoBufferSpace resync 0 (streamItems parseEvents received))
      (resyncedEnds RecvError.isNoBufferSpace resync false 0
        (streamItems parseEvents received)) := by
  have inner := yields_pollEventBackend parseEvents fatalError
  have outer : Yields (ResyncStream.pollNext RecvError.isNoBufferSpace resync
        (pollEventBackend parseEvents fatalError)) _ _ _ :=
    ResyncStream.yields_pollNext inner
  have exactly := outer.yieldsExactly (eventsWithResync (EventStream.new source))
  obtain ⟨items, endless⟩ := sourceItems_of_delivers parseEvents fatalError delivers
  simpa [ResyncStream.due, ResyncStream.ends, ResyncStream.later,
    ResyncStream.laterEnds, eventsWithResync, EventStream.due,
    EventStream.ends, EventStream.new, items, endless] using exactly

end

/-!
## Who observes a receive-buffer overflow

The socket reports an overflow once, to whoever receives from it.  An event
stream that polls the socket itself sees it.  In dispatcher mode the driver sees
it, and tells the multicast subscribers but not the event streams.  What each
live stream should observe is recorded beside the connection.
-/

/-- A stream: the channel it has in dispatcher mode, or its number in direct
mode. -/
abbrev StreamId := Nat

/-- A connection in direct mode: the stream that holds the request lock, and
what each stream's polls of the socket returned. -/
structure Direct where
  holder : Option StreamId
  nextStream : StreamId
  feeds : StreamId → List Received

def Direct.new : Direct where
  holder := none
  nextStream := 0
  feeds := fun _ => []

/-- The steps of a connection in direct mode. -/
inductive DirectAction where
  /-- `events` takes the request lock. -/
  | events
  | dropStream
  /-- The stream that holds the lock polls the socket. -/
  | streamRecv (result : Received)
  /-- Another receive: a request, or a `recv` that takes no lock. -/
  | otherRecv (result : Received)

namespace Direct

/-- One step of a connection in direct mode. -/
def step? (state : Direct) : DirectAction → Option Direct
  | .events =>
      match state.holder with
      | some _ => none
      | none =>
          some
            { state with
              holder := some state.nextStream
              nextStream := state.nextStream + 1 }
  | .dropStream => some { state with holder := none }
  | .streamRecv result =>
      match state.holder with
      | none => none
      | some stream =>
          some
            { state with
              feeds :=
                fun other =>
                  if other = stream then state.feeds other ++ [result] else state.feeds other }
  | .otherRecv _ => some state

end Direct

/-- A connection in one of its modes. -/
inductive Connection where
  | direct (state : Direct)
  | dispatched (state : Dispatcher.State)

/-- A step of a connection. -/
inductive ConnectionAction where
  | direct (action : DirectAction)
  | dispatched (action : Dispatcher.Action)

namespace Connection

/-- One step; a connection does not change its mode. -/
def step? (order : ByteOrder) (connection : Connection)
    (action : ConnectionAction) : Option Connection :=
  match connection, action with
  | .direct state, .direct action => (state.step? action).map .direct
  | .dispatched state, .dispatched action => (Dispatcher.step? order state action).map .dispatched
  | _, _ => none

/-- A stream is alive. -/
def Live : Connection → StreamId → Prop
  | .direct state, stream => state.holder = some stream
  | .dispatched state, stream => state.Listens stream

instance (connection : Connection) (stream : StreamId) : Decidable (connection.Live stream) :=
  match connection with
  | .direct state => inferInstanceAs (Decidable (state.holder = some stream))
  | .dispatched state => inferInstanceAs (Decidable (state.Listens stream))

/-- What a stream's source has handed it. -/
def fed : Connection → StreamId → List Received
  | .direct state, stream => state.feeds stream
  | .dispatched state, stream => (state.queues stream).map .ok

/-- What a step hands to the live streams. -/
def hands : Connection → ConnectionAction → List Received
  | .direct _, .direct (.streamRecv result) => [result]
  | .dispatched state, .dispatched action => (Dispatcher.notifies state action).map .ok
  | _, _ => []

/-- The overflow that a step reports to others than the live streams. -/
def overflows : Connection → ConnectionAction → List Received
  | .direct _, .direct (.otherRecv (.error .noBufferSpace)) => [.error .noBufferSpace]
  | .dispatched _, .dispatched .receivedEnobufs => [.error .noBufferSpace]
  | _, _ => []

end Connection

/-- A connection with a record of what each stream should observe: what it was
handed, and every overflow while it was alive. -/
structure Monitor where
  connection : Connection
  owed : StreamId → List Received

namespace Monitor

def step? (order : ByteOrder) (monitor : Monitor) (action : ConnectionAction) : Option Monitor :=
  match monitor.connection.step? order action with
  | none => none
  | some next =>
      some
        { connection := next
          owed :=
            fun stream =>
              if monitor.connection.Live stream then
                monitor.owed stream ++
                  (monitor.connection.hands action ++ monitor.connection.overflows action)
              else
                monitor.owed stream }

/-- A connection before its first step. -/
def new (connection : Connection) : Monitor where
  connection := connection
  owed := fun _ => []

end Monitor

/-- A new connection in either mode. -/
def IsNew (connection : Connection) : Prop :=
  connection = .direct Direct.new ∨ connection = .dispatched Dispatcher.new

section

variable {α : Type u}

/-- A stream handed these results yields, however it is polled, the events and
errors of those that it should observe, and a resync stream around it a window
for each overflow among them. -/
def Observes (parseEvents : Datagram → List α) (handed owed : List Received) :
    Prop :=
  ∀ fatalError source, Delivers source handed →
    YieldsExactly (pollEventBackend parseEvents fatalError)
        (EventStream.new source) (streamItems parseEvents owed) false ∧
      ∀ resync, YieldsExactly
          (ResyncStream.pollNext RecvError.isNoBufferSpace resync
            (pollEventBackend parseEvents fatalError))
          (eventsWithResync (EventStream.new source))
          (resynced RecvError.isNoBufferSpace resync 0 (streamItems parseEvents owed))
          (resyncedEnds RecvError.isNoBufferSpace resync false 0 (streamItems parseEvents owed))

/-- Every live stream observes what it should. -/
def ObservesOverflow (parseEvents : Datagram → List α) (monitor : Monitor) :
    Prop :=
  ∀ stream, monitor.connection.Live stream → Observes parseEvents (monitor.connection.fed stream)
      (monitor.owed stream)

/-- An overflow is reported to a live stream's own poll, or while no stream is
alive. -/
def ReportsToStream (monitor : Monitor) (action : ConnectionAction) : Prop :=
  match monitor.connection, action with
  | .direct state, .direct (.otherRecv (.error .noBufferSpace)) => state.holder = none
  | .dispatched state, .dispatched .receivedEnobufs => state.streams = []
  | _, _ => True

theorem delivers_map (received : List Received) :
    Delivers (received.map fun result => .ready (some result)) received := by
  rw [Delivers, List.filterMap_map, ← List.filterMap_eq_map]
  rfl

theorem observes_iff (parseEvents : Datagram → List α) (handed owed : List Received) :
    Observes parseEvents handed owed ↔
      streamItems parseEvents handed = streamItems parseEvents owed := by
  constructor
  · intro observes
    have delivers := delivers_map handed
    have yieldsOwed := (observes .noBufferSpace _ delivers).1
    have yieldsHanded := eventStream_yieldsExactly parseEvents .noBufferSpace delivers
    exact yieldsHanded.unique yieldsOwed
  · intro same fatalError source delivers
    rw [← same]
    exact ⟨eventStream_yieldsExactly parseEvents fatalError delivers,
      fun resync => eventStream_resync_yieldsExactly parseEvents fatalError resync delivers⟩

/-- Streams that do not exist yet have been handed nothing and should observe
nothing. -/
def Recorded (monitor : Monitor) : Prop :=
  match monitor.connection with
  | .direct state =>
      (∀ stream, state.holder = some stream → stream < state.nextStream) ∧
        ∀ stream, state.nextStream ≤ stream → state.feeds stream = [] ∧ monitor.owed stream = []
  | .dispatched state =>
      Dispatcher.StreamTable state ∧ ∀ channel, state.nextChannel ≤ channel →
          state.queues channel = [] ∧ monitor.owed channel = []

/-- What a step does for a stream that is alive after it: it hands the stream
what it hands out, or the stream is new. -/
def Handed (monitor : Monitor) (action : ConnectionAction) (next : Connection) : Prop :=
  ∀ stream, next.Live stream →
    (monitor.connection.Live stream ∧ next.fed stream =
          monitor.connection.fed stream ++ monitor.connection.hands action) ∨
      (¬ monitor.connection.Live stream ∧ next.fed stream = [] ∧ monitor.owed stream = [])

end

namespace Direct

theorem handed {state next : Direct} {owed : StreamId → List Received} {action : DirectAction}
    (recorded : Recorded { connection := .direct state, owed := owed })
    (taken : state.step? action = some next) :
    Handed { connection := .direct state, owed := owed } (.direct action) (.direct next) := by
  obtain ⟨holderUsed, unused⟩ := recorded
  intro stream live
  cases action with
  | events =>
      rw [step?] at taken
      split at taken
      · cases taken
      · rename_i free
        cases taken
        cases live
        right
        refine ⟨?_, unused _ (Nat.le_refl _)⟩
        rw [Connection.Live, free]
        simp
  | dropStream =>
      cases taken
      cases live
  | streamRecv result =>
      rw [step?] at taken
      split at taken
      · cases taken
      · rename_i holder held
        cases taken
        left
        refine ⟨live, ?_⟩
        have isHolder : stream = holder := Option.some.inj ((Eq.symm live).trans held)
        simp [Connection.fed, Connection.hands, isHolder]
  | otherRecv result =>
      cases taken
      exact Or.inl ⟨live, (List.append_nil _).symm⟩

theorem recorded {state next : Direct} {owed record : StreamId → List Received}
    {action : DirectAction} (recorded : Recorded { connection := .direct state, owed := owed })
    (taken : state.step? action = some next)
    (kept : ∀ stream, state.holder ≠ some stream → record stream = owed stream) :
    Recorded { connection := .direct next, owed := record } := by
  obtain ⟨holderUsed, unused⟩ := recorded
  have newUnused : ∀ stream, state.nextStream ≤ stream →
      state.feeds stream = [] ∧ record stream = [] := by
    intro stream new
    obtain ⟨noFeed, noRecord⟩ := unused stream new
    have notHeld : state.holder ≠ some stream := fun held =>
      Nat.not_lt.mpr new (holderUsed stream held)
    exact ⟨noFeed, (kept stream notHeld).trans noRecord⟩
  cases action with
  | events =>
      rw [step?] at taken
      split at taken
      · cases taken
      · cases taken
        constructor
        · intro stream held
          cases held
          exact Nat.lt_succ_self _
        · intro stream new
          exact newUnused stream (Nat.le_of_succ_le new)
  | dropStream =>
      cases taken
      refine ⟨?_, newUnused⟩
      intro stream held
      cases held
  | streamRecv result =>
      rw [step?] at taken
      split at taken
      · cases taken
      · rename_i holder held
        cases taken
        refine ⟨holderUsed, ?_⟩
        intro stream new
        have different : stream ≠ holder := by
          rintro rfl
          exact Nat.not_lt.mpr new (holderUsed stream held)
        simpa [different] using newUnused stream new
  | otherRecv result =>
      cases taken
      exact ⟨holderUsed, newUnused⟩

end Direct

theorem dispatched_recorded {order : ByteOrder} {state next : Dispatcher.State}
    {owed record : StreamId → List Received} {action : Dispatcher.Action}
    (recorded : Recorded { connection := .dispatched state, owed := owed })
    (taken : Dispatcher.step? order state action = some next)
    (kept : ∀ stream, ¬ state.Listens stream → record stream = owed stream) :
    Recorded { connection := .dispatched next, owed := record } := by
  obtain ⟨table, unused⟩ := recorded
  obtain ⟨grows, silent⟩ := table.queues_of_unused taken
  refine ⟨table.step taken, ?_⟩
  intro channel new
  have wasNew : state.nextChannel ≤ channel := Nat.le_trans grows new
  obtain ⟨noQueue, noRecord⟩ := unused channel wasNew
  have silentStream : ¬ state.Listens channel := by
    rintro ⟨guard, live, rfl⟩
    exact Nat.not_lt.mpr wasNew (table.base.streamsUsed guard live)
  exact ⟨(silent channel wasNew).trans noQueue, (kept channel silentStream).trans noRecord⟩

theorem dispatched_handed {order : ByteOrder} {state next : Dispatcher.State}
    {owed : StreamId → List Received} {action : Dispatcher.Action}
    (recorded : Recorded { connection := .dispatched state, owed := owed })
    (taken : Dispatcher.step? order state action = some next) :
    Handed { connection := .dispatched state, owed := owed }
      (.dispatched action) (.dispatched next) := by
  obtain ⟨table, unused⟩ := recorded
  intro channel live
  rcases table.queues_of_listens taken live with ⟨listens, appended⟩ | ⟨isNew, rfl, same⟩
  · left
    refine ⟨listens, ?_⟩
    simp only [Connection.fed, Connection.hands, appended, List.map_append]
  · right
    obtain ⟨noQueue, noRecord⟩ := unused _ (Nat.le_refl _)
    refine ⟨isNew, ?_, noRecord⟩
    simp only [Connection.fed, same, noQueue, List.map_nil]

section

variable {α : Type u}
variable {order : ByteOrder}
variable {monitor next : Monitor}
variable {action : ConnectionAction}

theorem Monitor.step?_eq_some (taken : monitor.step? order action = some next) :
    monitor.connection.step? order action = some next.connection ∧ ∀ stream, next.owed stream =
          if monitor.connection.Live stream then
            monitor.owed stream ++
              (monitor.connection.hands action ++ monitor.connection.overflows action)
          else
            monitor.owed stream := by
  rw [Monitor.step?] at taken
  split at taken
  · cases taken
  · rename_i connection isNext
    cases taken
    exact ⟨isNext, fun _ => rfl⟩

theorem Recorded.step (recorded : Recorded monitor)
    (taken : monitor.step? order action = some next) :
    Recorded next ∧ Handed monitor action next.connection := by
  obtain ⟨connection, owed⟩ := monitor
  obtain ⟨nextConnection, record⟩ := next
  obtain ⟨isStep, records⟩ := Monitor.step?_eq_some taken
  have kept : ∀ stream, ¬ connection.Live stream → record stream = owed stream := by
    intro stream dead
    exact (records stream).trans (if_neg dead)
  cases connection with
  | direct state =>
      cases action with
      | direct action =>
          obtain ⟨after, afterStep, rfl⟩ := Option.map_eq_some_iff.mp isStep
          exact ⟨Direct.recorded recorded afterStep kept, Direct.handed recorded afterStep⟩
      | dispatched action => cases isStep
  | dispatched state =>
      cases action with
      | direct action => cases isStep
      | dispatched action =>
          obtain ⟨after, afterStep, rfl⟩ := Option.map_eq_some_iff.mp isStep
          exact ⟨dispatched_recorded recorded afterStep kept, dispatched_handed recorded afterStep⟩

theorem overflows_of_reports (reports : ReportsToStream monitor action) {stream : StreamId}
    (live : monitor.connection.Live stream) : monitor.connection.overflows action = [] := by
  obtain ⟨connection, owed⟩ := monitor
  cases connection with
  | direct state =>
      cases action with
      | dispatched action => rfl
      | direct action =>
          rcases action with _ | _ | _ | result
          · rfl
          · rfl
          · rfl
          · rcases result with error | data
            · cases error with
              | noBufferSpace =>
                  have free : state.holder = none := reports
                  have held : state.holder = some stream := live
                  rw [free] at held
                  cases held
              | other message => rfl
            · rfl
  | dispatched state =>
      cases action with
      | direct action => rfl
      | dispatched action =>
          cases action with
          | receivedEnobufs =>
              have noStreams : state.streams = [] := reports
              obtain ⟨guard, guardLive, _⟩ := live
              rw [noStreams] at guardLive
              cases guardLive
          | _ => rfl

/-- A step that does not report to the streams hides an overflow from one that
stays alive. -/
theorem exists_hidden (unreported : ¬ ReportsToStream monitor action)
    (isStep : monitor.connection.step? order action = some next.connection) :
    ∃ stream, monitor.connection.Live stream ∧ next.connection.Live stream ∧
        monitor.connection.hands action = [] ∧
        monitor.connection.overflows action = [.error .noBufferSpace] := by
  obtain ⟨connection, owed⟩ := monitor
  cases connection with
  | direct state =>
      cases action with
      | dispatched action => exact absurd trivial unreported
      | direct action =>
          rcases action with _ | _ | _ | result
          · exact absurd trivial unreported
          · exact absurd trivial unreported
          · exact absurd trivial unreported
          · rcases result with error | data
            · cases error with
              | noBufferSpace =>
                  have isNext : Connection.direct state = next.connection := Option.some.inj isStep
                  obtain ⟨stream, held⟩ := Option.ne_none_iff_exists'.mp unreported
                  refine ⟨stream, held, ?_, rfl, rfl⟩
                  rw [← isNext]
                  exact held
              | other message => exact absurd trivial unreported
            · exact absurd trivial unreported
  | dispatched state =>
      cases action with
      | direct action => exact absurd trivial unreported
      | dispatched action =>
          cases action with
          | receivedEnobufs =>
              obtain ⟨after, afterStep, isNext⟩ := Option.map_eq_some_iff.mp isStep
              rw [Dispatcher.step?, Option.ite_none_right_eq_some] at afterStep
              obtain ⟨_, isAfter⟩ := afterStep
              cases isAfter
              obtain ⟨guard, live⟩ := List.exists_mem_of_ne_nil state.streams unreported
              refine ⟨guard.channel, ⟨guard, live, rfl⟩, ?_, rfl, rfl⟩
              rw [← isNext]
              exact ⟨guard, live, rfl⟩
          | _ => exact absurd trivial unreported

theorem step_observesOverflow {parseEvents : Datagram → List α} (recorded : Recorded monitor)
    (observes : ObservesOverflow parseEvents monitor)
    (taken : monitor.step? order action = some next) :
    ObservesOverflow parseEvents next ↔ ReportsToStream monitor action := by
  obtain ⟨isStep, records⟩ := Monitor.step?_eq_some taken
  have handed := (recorded.step taken).2
  constructor
  · intro observesNext
    by_contra unreported
    obtain ⟨stream, live, liveNext, nothing, overflow⟩ := exists_hidden unreported isStep
    have before := (observes_iff ..).mp (observes stream live)
    have after := (observes_iff ..).mp (observesNext stream liveNext)
    obtain ⟨_, feed⟩ | ⟨dead, _⟩ := handed stream liveNext
    · rw [feed, records, if_pos live, nothing, overflow, List.append_nil,
        before, List.nil_append, streamItems_append] at after
      have longer := congrArg List.length after
      simp [streamItems] at longer
    · exact dead live
  · intro reports stream liveNext
    refine (observes_iff ..).mpr ?_
    rcases handed stream liveNext with ⟨live, feed⟩ | ⟨dead, feed, record⟩
    · have before := (observes_iff ..).mp (observes stream live)
      rw [feed, records, if_pos live, overflows_of_reports reports live,
        List.append_nil, streamItems_append, streamItems_append, before]
    · rw [feed, records, if_neg dead, record]

theorem Monitor.new_recorded {connection : Connection} (isNew : IsNew connection)
    (parseEvents : Datagram → List α) :
    Recorded (Monitor.new connection) ∧ ObservesOverflow parseEvents (Monitor.new connection) := by
  rcases isNew with rfl | rfl
  · refine ⟨⟨?_, fun _ _ => ⟨rfl, rfl⟩⟩, ?_⟩
    · intro stream held
      cases held
    · intro stream live
      cases live
  · refine ⟨⟨Dispatcher.StreamTable.new, fun _ _ => ⟨rfl, rfl⟩⟩, ?_⟩
    rintro stream ⟨guard, live, _⟩
    cases live

/-- In every run of a connection, in either mode, every live stream observes in
order what it was handed and every overflow, in every state reached, exactly
when every overflow of the run is reported to a stream's own poll or while no
stream is alive. -/
theorem observesOverflow_iff (order : ByteOrder) (parseEvents : Datagram → List α)
    (connection : Connection) (isNew : IsNew connection) (steps : List (ConnectionAction × Monitor))
    (run : Execution (Monitor.step? order) (Monitor.new connection) steps) :
    Execution.Always (ObservesOverflow parseEvents) (Monitor.new connection) steps ↔
      Execution.Guarded ReportsToStream (Monitor.new connection) steps := by
  obtain ⟨recorded, observes⟩ := Monitor.new_recorded isNew parseEvents
  have preserved : ∀ monitor action next, Recorded monitor →
      Monitor.step? order monitor action = some next → Recorded next := by
    intro monitor action next recorded taken
    exact (recorded.step taken).1
  have exactly : ∀ monitor action next, Recorded monitor → ObservesOverflow parseEvents monitor →
      Monitor.step? order monitor action = some next →
        (ObservesOverflow parseEvents next ↔ ReportsToStream monitor action) := by
    intro monitor action next recorded observes taken
    exact step_observesOverflow recorded observes taken
  exact run.always_iff_guarded preserved exactly recorded observes

/-- A stream in direct mode polls a datagram, an overflow and a datagram. -/
def directOverflow : List ConnectionAction :=
  [.direct .events, .direct (.streamRecv (.ok [1])), .direct (.streamRecv (.error .noBufferSpace)),
    .direct (.streamRecv (.ok [2]))]

/-- The stream observes the overflow. -/
theorem observesOverflow_iff_direct : ∃ steps, steps.map Prod.fst = directOverflow ∧
        Execution (Monitor.step? .little) (Monitor.new (.direct Direct.new)) steps ∧
        Execution.Always (ObservesOverflow fun data => data)
          (Monitor.new (.direct Direct.new)) steps := by
  obtain ⟨steps, actions, run, reports⟩ : ∃ steps, steps.map Prod.fst = directOverflow ∧
          Execution (Monitor.step? .little) (Monitor.new (.direct Direct.new)) steps ∧
          Execution.Guarded ReportsToStream (Monitor.new (.direct Direct.new)) steps := by
    refine ⟨[(_, _), (_, _), (_, _), (_, _)], rfl,
      .cons rfl (.cons rfl (.cons rfl (.cons rfl (.nil _)))), ?_⟩
    exact ⟨trivial, trivial, trivial, trivial, trivial⟩
  exact ⟨steps, actions, run, (observesOverflow_iff .little (fun data => data) (.direct Direct.new)
      (Or.inl rfl) steps run).mpr reports⟩

/-- A stream in dispatcher mode, a notification, an overflow, and another
notification. -/
def dispatchedOverflow : List ConnectionAction :=
  [.dispatched .ensureDriver, .dispatched .subscribeEvents,
    .dispatched (.received [16, 0, 0, 0, 2, 0, 0, 0, 0, 0, 0, 0, 1, 0, 0, 0]),
    .dispatched .fanOutEvents, .dispatched .receivedEnobufs,
    .dispatched (.received [16, 0, 0, 0, 2, 0, 0, 0, 0, 0, 0, 0, 2, 0, 0, 0]),
    .dispatched .fanOutEvents]

/-- The stream yields both notifications and never the overflow. -/
theorem dispatchedOverflow_hidden : ∃ final,
      run? (Monitor.step? .little) (Monitor.new (.dispatched Dispatcher.new))
          dispatchedOverflow = some final ∧
        final.connection.Live 0 ∧
        final.connection.fed 0 =
          [.ok [16, 0, 0, 0, 2, 0, 0, 0, 0, 0, 0, 0, 1, 0, 0, 0],
            .ok [16, 0, 0, 0, 2, 0, 0, 0, 0, 0, 0, 0, 2, 0, 0, 0]] ∧
        ¬ ObservesOverflow (fun data => data) final := by
  refine ⟨_, rfl, by decide, rfl, ?_⟩
  intro observes
  have live := observes 0 (by decide)
  have same := (observes_iff ..).mp live
  have lengths := congrArg List.length same
  revert lengths
  decide

end

end Nlink.Netlink.Stream
