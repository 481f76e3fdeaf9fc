import Nlink.Foundation.Execution
import Nlink.NetlinkDump

namespace Nlink.Netlink.Dispatcher

open Foundation List

/-!
# The dispatcher and its receive driver

In dispatcher mode a background driver owns the socket's receive side.
Requests, event streams and multicast subscribers each hold the receiving end
of a channel; the sending ends live in three tables of the dispatcher.  One
step is one critical section, so that the tables are seen between the sections
of a function that takes several locks.
-/

/-- A channel; the numbers are never used again. -/
abbrev ChannelId := Nat

/-- How far the driver has come. -/
inductive Driver where
  | notSpawned
  | receiving
  /-- A notification went to the subscribers, not yet to the listeners. -/
  | fanningOut (buf : Datagram)
  /-- `fail_all` has stored the error. -/
  | clearingPending
  | clearingListeners
  | exited
  deriving DecidableEq

/-- What multicast subscribers receive. -/
inductive DispatcherEvent where
  | frame (buf : Datagram)
  | resyncStart

/-- The receiving end of a request's channel, with the seqs routed to it. -/
structure PendingGuard where
  channel : ChannelId
  seqs : List Nat
  deriving DecidableEq

/-- The receiving end of an event stream's channel. -/
structure EventGuard where
  id : Nat
  channel : ChannelId
  deriving DecidableEq

/-- The receiving end of a multicast subscription. -/
structure MulticastReceiver where
  channel : ChannelId
  group : Nat
  deriving DecidableEq

/-- The capacity of a broadcast channel; older events are dropped beyond it. -/
def DEFAULT_MULTICAST_CAPACITY : Nat := 1024

/-- The dispatcher's tables, the receivers that exist, and what the channels
hold.  `pending` maps a seq to the channel of its sender; `subscribers` says
which groups have a broadcast sender. -/
structure State where
  driver : Driver
  fatal : Option String
  pending : Nat → Option ChannelId
  eventListeners : List (Nat × ChannelId)
  nextListenerId : Nat
  subscribers : Nat → Bool
  requests : List PendingGuard
  streams : List EventGuard
  multicast : List MulticastReceiver
  queues : ChannelId → List Datagram
  broadcasts : ChannelId → List DispatcherEvent
  nextChannel : ChannelId

def new : State where
  driver := .notSpawned
  fatal := none
  pending := fun _ => none
  eventListeners := []
  nextListenerId := 0
  subscribers := fun _ => false
  requests := []
  streams := []
  multicast := []
  queues := fun _ => []
  broadcasts := fun _ => []
  nextChannel := 0

namespace State

/-- `ensure_driver`: the `OnceLock` spawns the driver once only. -/
def ensureDriver (state : State) : State :=
  match state.driver with
  | .notSpawned => { state with driver := .receiving }
  | _ => state

/-- `register_many`: one channel for several seqs. -/
def registerMany (state : State) (seqs : List Nat) : State :=
  { state with
    pending := fun seq => if seq ∈ seqs then some state.nextChannel else state.pending seq
    requests := { channel := state.nextChannel, seqs := seqs } :: state.requests
    nextChannel := state.nextChannel + 1 }

/-- `register`. -/
def register (state : State) (seq : Nat) : State :=
  state.registerMany [seq]

/-- `deregister`, which the drop of a `PendingGuard` calls for one seq after
the other. -/
def deregister (state : State) (guard : PendingGuard) : State :=
  { state with
    pending := fun seq => if guard.seqs.head? = some seq then none else state.pending seq
    requests := { guard with seqs := guard.seqs.tail } :: state.requests.erase guard }

/-- Dropping a `PendingGuard` deregisters all seqs that it still has. -/
def dropRequest (state : State) (guard : PendingGuard) : State :=
  { state with
    pending := fun seq => if seq ∈ guard.seqs then none else state.pending seq
    requests := state.requests.erase guard }

/-- `subscribe_events`. -/
def subscribeEvents (state : State) : State :=
  { state with
    eventListeners := (state.nextListenerId, state.nextChannel) :: state.eventListeners
    nextListenerId := state.nextListenerId + 1
    streams := { id := state.nextListenerId, channel := state.nextChannel } :: state.streams
    nextChannel := state.nextChannel + 1 }

/-- Dropping an `EventGuard` deregisters its listener. -/
def dropEvents (state : State) (guard : EventGuard) : State :=
  { state with
    eventListeners := state.eventListeners.filter fun listener => listener.1 != guard.id
    streams := state.streams.erase guard }

/-- `subscribe_multicast`: the group's sender is created on first use. -/
def subscribeMulticast (state : State) (group : Nat) : State :=
  { state with
    subscribers := fun other => other == group || state.subscribers other
    multicast := { channel := state.nextChannel, group := group } :: state.multicast
    nextChannel := state.nextChannel + 1 }

/-- Dropping a multicast receiver leaves the group's sender in place. -/
def dropMulticast (state : State) (receiver : MulticastReceiver) : State :=
  { state with multicast := state.multicast.erase receiver }

/-- Send an event to the receivers of every group that has a sender. -/
def broadcast (state : State) (event : DispatcherEvent) : State :=
  { state with
    broadcasts :=
      fun channel =>
        if state.multicast.any fun receiver =>
            receiver.channel == channel && state.subscribers receiver.group
        then
          let events := state.broadcasts channel ++ [event]
          events.drop (events.length - DEFAULT_MULTICAST_CAPACITY)
        else
          state.broadcasts channel }

/-- `emit_enobufs`. -/
def emitEnobufs (state : State) : State :=
  state.broadcast .resyncStart

/-- `fan_out_all`. -/
def fanOutAll (state : State) (buf : Datagram) : State :=
  state.broadcast (.frame buf)

/-- `fan_out_events`: listeners whose receiver is gone are pruned. -/
def fanOutEvents (state : State) (buf : Datagram) : State :=
  let alive := state.eventListeners.filter fun listener =>
    state.streams.any fun guard => guard.channel == listener.2
  { state with
    eventListeners := alive
    queues :=
      fun channel =>
        if alive.any fun listener => listener.2 == channel then
          state.queues channel ++ [buf]
        else
          state.queues channel }

/-- Send a datagram into the channel of a seq, if the seq is registered. -/
def sendPending (state : State) (seq : Nat) (buf : Datagram) : State :=
  match state.pending seq with
  | none => state
  | some owner =>
      { state with
        queues :=
          fun channel =>
            if channel = owner then state.queues channel ++ [buf] else state.queues channel }

/-- The seq of the first message of a datagram that parses. -/
def routingSeq (order : ByteOrder) (buf : Datagram) : Option Nat :=
  (messageIter order buf).findSome? fun message =>
    match message with
    | .ok message => some message.1.nlmsgSeq
    | .error _ => none

/-- `route_buffer`, up to the second fan-out of a notification. -/
def routeBuffer (state : State) (order : ByteOrder) (buf : Datagram) :
    State :=
  match routingSeq order buf with
  | none => state
  | some 0 => { state.fanOutAll buf with driver := .fanningOut buf }
  | some (seq + 1) => state.sendPending (seq + 1) buf

/-- `take_fatal_error`: the text of the error that a caller gets when its
channel has closed. -/
def takeFatalError (state : State) : String :=
  match state.fatal with
  | some message => "netlink dispatcher driver stopped: " ++ message
  | none => "netlink dispatcher driver stopped before the response arrived"

end State

/-- The steps of callers and of the driver. -/
inductive Action where
  | ensureDriver
  | register (seq : Nat)
  | registerMany (seqs : List Nat)
  /-- The drop of a guard has deregistered its next seq. -/
  | deregister (guard : PendingGuard)
  | dropRequest (guard : PendingGuard)
  | subscribeEvents
  | dropEvents (guard : EventGuard)
  | subscribeMulticast (group : Nat)
  | dropMulticast (receiver : MulticastReceiver)
  /-- The driver receives a datagram and routes it. -/
  | received (buf : Datagram)
  /-- The driver passes a notification on to the event listeners. -/
  | fanOutEvents
  /-- The driver's receive returns ENOBUFS. -/
  | receivedEnobufs
  /-- The driver's receive fails, and `fail_all` stores the error. -/
  | receivedFatal (message : String)
  /-- `fail_all` clears the pending table. -/
  | clearPending
  /-- `fail_all` clears the event listeners, and the driver exits. -/
  | clearListeners

/-- One step; actions that cannot happen in a state are refused. -/
def step? (order : ByteOrder) (state : State) : Action → Option State
  | .ensureDriver => some state.ensureDriver
  | .register seq => some (state.register seq)
  | .registerMany seqs => some (state.registerMany seqs)
  | .deregister guard => if guard ∈ state.requests then some (state.deregister guard) else none
  | .dropRequest guard => if guard ∈ state.requests then some (state.dropRequest guard) else none
  | .subscribeEvents => some state.subscribeEvents
  | .dropEvents guard => if guard ∈ state.streams then some (state.dropEvents guard) else none
  | .subscribeMulticast group => some (state.subscribeMulticast group)
  | .dropMulticast receiver =>
      if receiver ∈ state.multicast then some (state.dropMulticast receiver) else none
  | .received buf => if state.driver = .receiving then some (state.routeBuffer order buf) else none
  | .fanOutEvents =>
      match state.driver with
      | .fanningOut buf => some { state.fanOutEvents buf with driver := .receiving }
      | _ => none
  | .receivedEnobufs => if state.driver = .receiving then some state.emitEnobufs else none
  | .receivedFatal message =>
      if state.driver = .receiving then
        some { state with
               fatal := some message
               driver := .clearingPending }
      else
        none
  | .clearPending =>
      if state.driver = .clearingPending then
        some { state with
               pending := fun _ => none
               driver := .clearingListeners }
      else
        none
  | .clearListeners =>
      if state.driver = .clearingListeners then
        some { state with
               eventListeners := []
               driver := .exited }
      else
        none

/-- Where a received datagram goes. -/
inductive Routed (order : ByteOrder) (state : State) (buf : Datagram) : State → Prop where
  | dropped (nobody : ∀ seq, State.routingSeq order buf = some seq →
        seq ≠ 0 ∧ state.pending seq = none) :
      Routed order state buf state
  | notified (routed : State.routingSeq order buf = some 0) :
      Routed order state buf { state.fanOutAll buf with driver := .fanningOut buf }
  | delivered {seq : Nat} {owner : ChannelId} (routed : State.routingSeq order buf = some (seq + 1))
      (registered : state.pending (seq + 1) = some owner) :
      Routed order state buf
        { state with
          queues := fun channel =>
            if channel = owner then state.queues channel ++ [buf] else state.queues channel }

/-- What each step does, and when it can be taken. -/
inductive Stepped (order : ByteOrder) (state : State) : Action → State → Prop where
  | spawned (phase : state.driver = .notSpawned) :
      Stepped order state .ensureDriver { state with driver := .receiving }
  | running : Stepped order state .ensureDriver state
  | register (seq : Nat) : Stepped order state (.register seq) (state.registerMany [seq])
  | registerMany (seqs : List Nat) :
      Stepped order state (.registerMany seqs) (state.registerMany seqs)
  | deregister (guard : PendingGuard) (live : guard ∈ state.requests) :
      Stepped order state (.deregister guard) (state.deregister guard)
  | dropRequest (guard : PendingGuard) (live : guard ∈ state.requests) :
      Stepped order state (.dropRequest guard) (state.dropRequest guard)
  | subscribeEvents : Stepped order state .subscribeEvents state.subscribeEvents
  | dropEvents (guard : EventGuard) (live : guard ∈ state.streams) :
      Stepped order state (.dropEvents guard) (state.dropEvents guard)
  | subscribeMulticast (group : Nat) :
      Stepped order state (.subscribeMulticast group) (state.subscribeMulticast group)
  | dropMulticast (receiver : MulticastReceiver) (live : receiver ∈ state.multicast) :
      Stepped order state (.dropMulticast receiver) (state.dropMulticast receiver)
  | received (buf : Datagram) {next : State} (receiving : state.driver = .receiving)
      (routed : Routed order state buf next) :
      Stepped order state (.received buf) next
  | fanOutEvents {buf : Datagram} (phase : state.driver = .fanningOut buf) :
      Stepped order state .fanOutEvents { state.fanOutEvents buf with driver := .receiving }
  | receivedEnobufs (receiving : state.driver = .receiving) :
      Stepped order state .receivedEnobufs state.emitEnobufs
  | receivedFatal (message : String) (receiving : state.driver = .receiving) :
      Stepped order state (.receivedFatal message)
        { state with
          fatal := some message
          driver := .clearingPending }
  | clearPending (phase : state.driver = .clearingPending) :
      Stepped order state .clearPending
        { state with
          pending := fun _ => none
          driver := .clearingListeners }
  | clearListeners (phase : state.driver = .clearingListeners) :
      Stepped order state .clearListeners
        { state with
          eventListeners := []
          driver := .exited }

theorem routed_routeBuffer (order : ByteOrder) (state : State) (buf : Datagram) :
    Routed order state buf (state.routeBuffer order buf) := by
  rw [State.routeBuffer]
  split
  · rename_i nothing
    exact .dropped fun seq isSeq => absurd (nothing.symm.trans isSeq) nofun
  · rename_i zero
    exact .notified zero
  · rename_i seq isSeq
    rw [State.sendPending]
    cases registered : state.pending (seq + 1) with
    | none =>
        refine .dropped fun other isOther => ?_
        cases isSeq.symm.trans isOther
        exact ⟨Nat.succ_ne_zero seq, registered⟩
    | some owner => exact .delivered isSeq registered

/-- Every step is one of the listed ones. -/
theorem stepped_of_step {order : ByteOrder} {state next : State} {action : Action}
    (taken : step? order state action = some next) : Stepped order state action next := by
  cases action with
  | ensureDriver =>
      cases taken
      rw [State.ensureDriver]
      split
      · rename_i phase
        exact .spawned phase
      · exact .running
  | register seq =>
      cases taken
      exact .register seq
  | registerMany seqs =>
      cases taken
      exact .registerMany seqs
  | subscribeEvents =>
      cases taken
      exact .subscribeEvents
  | subscribeMulticast group =>
      cases taken
      exact .subscribeMulticast group
  | fanOutEvents =>
      rw [step?] at taken
      split at taken
      · cases taken
        exact .fanOutEvents ‹_›
      · cases taken
  | received buf =>
      rw [step?, Option.ite_none_right_eq_some] at taken
      obtain ⟨receiving, isNext⟩ := taken
      cases isNext
      exact .received buf receiving (routed_routeBuffer order state buf)
  | deregister _ | dropRequest _ | dropEvents _ | dropMulticast _ | receivedEnobufs
  | receivedFatal _ | clearPending | clearListeners =>
      rw [step?, Option.ite_none_right_eq_some] at taken
      obtain ⟨allowed, isNext⟩ := taken
      cases isNext
      constructor
      exact allowed

/-!
## What receivers see when the driver dies

A receiver's channel is closed when no table holds a sender of it.  `fail_all`
clears two of the three tables, each at one instant, and nothing looks at the
driver when a receiver registers later.  Receivers learn of the failure exactly
when none of them registers too late and no multicast receiver is alive.
-/

/-- Every receiver's channel is closed, and callers get the recorded error. -/
structure AllClosed (state : State) : Prop where
  requests : ∀ guard ∈ state.requests, ∀ seq, state.pending seq ≠ some guard.channel
  streams : ∀ guard ∈ state.streams, ∀ listener ∈ state.eventListeners, listener.2 ≠ guard.channel
  multicast : ∀ receiver ∈ state.multicast, state.subscribers receiver.group = false
  reported : ∃ message, state.takeFatalError = "netlink dispatcher driver stopped: " ++ message

/-- Once the driver has died, every receiver observes it. -/
def FailureReachesAll (state : State) : Prop :=
  state.driver = .exited → AllClosed state

/-- The condition on a step: receivers register only while the driver lives,
and when it exits no request has registered since the pending table was cleared
and no multicast receiver is alive. -/
def RegistersInTime (state : State) : Action → Prop
  | .register _ => state.driver ≠ .exited
  | .registerMany seqs => seqs = [] ∨ state.driver ≠ .exited
  | .subscribeEvents => state.driver ≠ .exited
  | .subscribeMulticast _ => state.driver ≠ .exited
  | .clearListeners => (∀ seq, state.pending seq = none) ∧ state.multicast = []
  | _ => True

/-- The tables refer to receivers that exist, by channels already used. -/
structure WellFormed (state : State) : Prop where
  pendingOwned : ∀ seq channel, state.pending seq = some channel →
    ∃ guard ∈ state.requests, guard.channel = channel ∧ seq ∈ guard.seqs
  requestsUsed : ∀ guard ∈ state.requests, guard.channel < state.nextChannel
  streamsUsed : ∀ guard ∈ state.streams, guard.channel < state.nextChannel
  subscribed : ∀ receiver ∈ state.multicast, state.subscribers receiver.group = true
  failureRecorded :
    (state.driver = .clearingPending ∨ state.driver = .clearingListeners ∨ state.driver = .exited) →
      ∃ message, state.fatal = some message

namespace WellFormed

theorem new : WellFormed Dispatcher.new where
  pendingOwned := by
    intro seq channel registered
    cases registered
  requestsUsed := by
    intro guard member
    cases member
  streamsUsed := by
    intro guard member
    cases member
  subscribed := by
    intro receiver member
    cases member
  failureRecorded := by rintro (phase | phase | phase) <;> cases phase

theorem ofTables {state next : State} (wellFormed : WellFormed state)
    (samePending : next.pending = state.pending) (sameRequests : next.requests = state.requests)
    (sameStreams : next.streams = state.streams) (sameMulticast : next.multicast = state.multicast)
    (sameSubscribers : next.subscribers = state.subscribers)
    (sameChannel : next.nextChannel = state.nextChannel)
    (failureRecorded :
      (next.driver = .clearingPending ∨ next.driver = .clearingListeners ∨ next.driver = .exited) →
        ∃ message, next.fatal = some message) :
    WellFormed next where
  pendingOwned := by
    rw [samePending, sameRequests]
    exact wellFormed.pendingOwned
  requestsUsed := by
    rw [sameRequests, sameChannel]
    exact wellFormed.requestsUsed
  streamsUsed := by
    rw [sameStreams, sameChannel]
    exact wellFormed.streamsUsed
  subscribed := by
    rw [sameMulticast, sameSubscribers]
    exact wellFormed.subscribed
  failureRecorded := failureRecorded

variable {state : State}

section

variable (wellFormed : WellFormed state)

include wellFormed

theorem registerMany (seqs : List Nat) :
    WellFormed (state.registerMany seqs) where
  pendingOwned := by
    intro seq channel registered
    simp only [State.registerMany] at registered ⊢
    split at registered
    · rename_i member
      cases registered
      exact ⟨_, mem_cons_self .., rfl, member⟩
    · obtain ⟨guard, member, owner, routed⟩ := wellFormed.pendingOwned seq channel registered
      exact ⟨guard, mem_cons_of_mem _ member, owner, routed⟩
  requestsUsed := by
    intro guard member
    simp only [State.registerMany] at member ⊢
    rcases mem_cons.mp member with rfl | member
    · exact Nat.lt_succ_self _
    · exact Nat.lt_succ_of_lt (wellFormed.requestsUsed guard member)
  streamsUsed := by
    intro guard member
    exact Nat.lt_succ_of_lt (wellFormed.streamsUsed guard member)
  subscribed := wellFormed.subscribed
  failureRecorded := wellFormed.failureRecorded

theorem deregister {guard : PendingGuard} (live : guard ∈ state.requests) :
    WellFormed (state.deregister guard) where
  pendingOwned := by
    intro seq channel registered
    simp only [State.deregister] at registered ⊢
    split at registered
    · cases registered
    · rename_i notHead
      obtain ⟨owner, member, isOwner, routed⟩ := wellFormed.pendingOwned seq channel registered
      by_cases same : owner = guard
      · subst same
        have inTail : seq ∈ owner.seqs.tail := by
          cases seqs : owner.seqs with
          | nil => simp [seqs] at routed
          | cons head rest =>
              simp only [seqs, head?_cons, Option.some.injEq] at notHead
              rw [seqs] at routed
              exact (mem_cons.mp routed).resolve_left (fun isHead => notHead isHead.symm)
        exact ⟨_, mem_cons_self .., isOwner, inTail⟩
      · exact ⟨owner, mem_cons_of_mem _ ((mem_erase_of_ne same).mpr member), isOwner, routed⟩
  requestsUsed := by
    intro other member
    rcases mem_cons.mp member with rfl | member
    · exact wellFormed.requestsUsed guard live
    · exact wellFormed.requestsUsed other (mem_of_mem_erase member)
  streamsUsed := wellFormed.streamsUsed
  subscribed := wellFormed.subscribed
  failureRecorded := wellFormed.failureRecorded

theorem dropRequest (guard : PendingGuard) :
    WellFormed (state.dropRequest guard) where
  pendingOwned := by
    intro seq channel registered
    simp only [State.dropRequest] at registered ⊢
    split at registered
    · cases registered
    · rename_i notRouted
      obtain ⟨owner, member, isOwner, routed⟩ := wellFormed.pendingOwned seq channel registered
      have different : owner ≠ guard := by
        intro same
        exact notRouted (same ▸ routed)
      exact ⟨owner, (mem_erase_of_ne different).mpr member, isOwner, routed⟩
  requestsUsed := by
    intro other member
    exact wellFormed.requestsUsed other (mem_of_mem_erase member)
  streamsUsed := wellFormed.streamsUsed
  subscribed := wellFormed.subscribed
  failureRecorded := wellFormed.failureRecorded

theorem subscribeEvents : WellFormed state.subscribeEvents where
  pendingOwned := wellFormed.pendingOwned
  requestsUsed := by
    intro guard member
    exact Nat.lt_succ_of_lt (wellFormed.requestsUsed guard member)
  streamsUsed := by
    intro guard member
    simp only [State.subscribeEvents] at member ⊢
    rcases mem_cons.mp member with rfl | member
    · exact Nat.lt_succ_self _
    · exact Nat.lt_succ_of_lt (wellFormed.streamsUsed guard member)
  subscribed := wellFormed.subscribed
  failureRecorded := wellFormed.failureRecorded

theorem dropEvents (guard : EventGuard) :
    WellFormed (state.dropEvents guard) where
  pendingOwned := wellFormed.pendingOwned
  requestsUsed := wellFormed.requestsUsed
  streamsUsed := by
    intro other member
    exact wellFormed.streamsUsed other (mem_of_mem_erase member)
  subscribed := wellFormed.subscribed
  failureRecorded := wellFormed.failureRecorded

theorem subscribeMulticast (group : Nat) :
    WellFormed (state.subscribeMulticast group) where
  pendingOwned := wellFormed.pendingOwned
  requestsUsed := by
    intro guard member
    exact Nat.lt_succ_of_lt (wellFormed.requestsUsed guard member)
  streamsUsed := by
    intro guard member
    exact Nat.lt_succ_of_lt (wellFormed.streamsUsed guard member)
  subscribed := by
    intro receiver member
    simp only [State.subscribeMulticast] at member ⊢
    rcases mem_cons.mp member with rfl | member
    · simp
    · simp [wellFormed.subscribed receiver member]
  failureRecorded := wellFormed.failureRecorded

theorem dropMulticast (receiver : MulticastReceiver) :
    WellFormed (state.dropMulticast receiver) where
  pendingOwned := wellFormed.pendingOwned
  requestsUsed := wellFormed.requestsUsed
  streamsUsed := wellFormed.streamsUsed
  subscribed := by
    intro other member
    exact wellFormed.subscribed other (mem_of_mem_erase member)
  failureRecorded := wellFormed.failureRecorded

theorem routed {order : ByteOrder} {buf : Datagram} {next : State}
    (routed : Routed order state buf next) : WellFormed next := by
  cases routed with
  | dropped _ => exact wellFormed
  | notified _ =>
      refine wellFormed.ofTables rfl rfl rfl rfl rfl rfl ?_
      rintro (phase | phase | phase) <;> cases phase
  | delivered _ _ => exact wellFormed.ofTables rfl rfl rfl rfl rfl rfl wellFormed.failureRecorded

end

/-- Every step keeps the tables well formed. -/
theorem step {order : ByteOrder} {state next : State} {action : Action}
    (wellFormed : WellFormed state) (taken : step? order state action = some next) :
    WellFormed next := by
  cases stepped_of_step taken with
  | spawned _ | fanOutEvents _ =>
      refine wellFormed.ofTables rfl rfl rfl rfl rfl rfl ?_
      rintro (phase | phase | phase) <;> cases phase
  | running => exact wellFormed
  | register _ | registerMany _ => exact wellFormed.registerMany _
  | deregister _ live => exact wellFormed.deregister live
  | dropRequest guard _ => exact wellFormed.dropRequest guard
  | subscribeEvents => exact wellFormed.subscribeEvents
  | dropEvents guard _ => exact wellFormed.dropEvents guard
  | subscribeMulticast group => exact wellFormed.subscribeMulticast group
  | dropMulticast receiver _ => exact wellFormed.dropMulticast receiver
  | received _ _ routed => exact wellFormed.routed routed
  | receivedEnobufs _ => exact wellFormed.ofTables rfl rfl rfl rfl rfl rfl wellFormed.failureRecorded
  | receivedFatal message _ =>
      exact wellFormed.ofTables rfl rfl rfl rfl rfl rfl fun _ => ⟨message, rfl⟩
  | clearPending phase =>
      exact
        { pendingOwned := fun _ _ registered => nomatch registered
          requestsUsed := wellFormed.requestsUsed
          streamsUsed := wellFormed.streamsUsed
          subscribed := wellFormed.subscribed
          failureRecorded := fun _ => wellFormed.failureRecorded (Or.inl phase) }
  | clearListeners phase =>
      exact wellFormed.ofTables rfl rfl rfl rfl rfl rfl
        fun _ => wellFormed.failureRecorded (Or.inr (Or.inl phase))

end WellFormed

variable {state : State}

theorem takeFatalError_recorded (recorded : ∃ message, state.fatal = some message) : ∃ message,
      state.takeFatalError = "netlink dispatcher driver stopped: " ++ message := by
  obtain ⟨message, isFatal⟩ := recorded
  exact ⟨message, by rw [State.takeFatalError, isFatal]⟩

theorem allClosed_registerMany (wellFormed : WellFormed state) (closed : AllClosed state)
    (seqs : List Nat) : AllClosed (state.registerMany seqs) ↔ seqs = [] := by
  constructor
  · intro nextClosed
    cases seqs with
    | nil => rfl
    | cons seq rest =>
        have registered :=
          nextClosed.requests { channel := state.nextChannel, seqs := seq :: rest }
            (mem_cons_self ..) seq
        simp [State.registerMany] at registered
  · rintro rfl
    refine ⟨?_, closed.streams, closed.multicast, closed.reported⟩
    intro guard member seq
    simp only [State.registerMany, not_mem_nil, if_false]
    rcases mem_cons.mp member with rfl | member
    · intro registered
      obtain ⟨owner, ownerMember, isOwner, _⟩ := wellFormed.pendingOwned seq _ registered
      have used := wellFormed.requestsUsed owner ownerMember
      exact absurd isOwner (Nat.ne_of_lt used)
    · exact closed.requests guard member seq

theorem not_allClosed_subscribeEvents (state : State) : ¬ AllClosed state.subscribeEvents := by
  intro closed
  exact closed.streams _ (mem_cons_self ..) _ (mem_cons_self ..)
    rfl

theorem not_allClosed_subscribeMulticast (state : State) (group : Nat) :
    ¬ AllClosed (state.subscribeMulticast group) := by
  intro closed
  have noSender := closed.multicast _ (mem_cons_self ..)
  simp [State.subscribeMulticast] at noSender

theorem allClosed_deregister (closed : AllClosed state) {guard : PendingGuard}
    (live : guard ∈ state.requests) : AllClosed (state.deregister guard) := by
  refine ⟨?_, closed.streams, closed.multicast, closed.reported⟩
  intro other member seq
  simp only [State.deregister]
  split
  · simp
  · rcases mem_cons.mp member with rfl | member
    · exact closed.requests guard live seq
    · exact closed.requests other (mem_of_mem_erase member) seq

theorem allClosed_dropRequest (closed : AllClosed state) (guard : PendingGuard) :
    AllClosed (state.dropRequest guard) := by
  refine ⟨?_, closed.streams, closed.multicast, closed.reported⟩
  intro other member seq
  simp only [State.dropRequest]
  split
  · simp
  · exact closed.requests other (mem_of_mem_erase member) seq

theorem allClosed_dropEvents (closed : AllClosed state) (guard : EventGuard) :
    AllClosed (state.dropEvents guard) := by
  refine ⟨closed.requests, ?_, closed.multicast, closed.reported⟩
  intro other member listener listening
  exact closed.streams other (mem_of_mem_erase member) listener (mem_of_mem_filter listening)

theorem allClosed_dropMulticast (closed : AllClosed state) (receiver : MulticastReceiver) :
    AllClosed (state.dropMulticast receiver) := by
  refine ⟨closed.requests, closed.streams, ?_, closed.reported⟩
  intro other member
  exact closed.multicast other (mem_of_mem_erase member)

theorem allClosed_clearListeners (wellFormed : WellFormed state)
    (phase : state.driver = .clearingListeners) :
    AllClosed { state with eventListeners := [], driver := .exited } ↔
      (∀ seq, state.pending seq = none) ∧ state.multicast = [] := by
  constructor
  · intro closed
    constructor
    · intro seq
      cases registered : state.pending seq with
      | none => rfl
      | some channel =>
          obtain ⟨guard, member, isOwner, _⟩ := wellFormed.pendingOwned seq channel registered
          have detached := closed.requests guard member seq
          rw [isOwner] at detached
          exact absurd registered detached
    · apply eq_nil_iff_forall_not_mem.mpr
      intro receiver member
      have noSender := closed.multicast receiver member
      have sender := wellFormed.subscribed receiver member
      simp only at noSender
      rw [sender] at noSender
      cases noSender
  · rintro ⟨noPending, noMulticast⟩
    refine ⟨?_, ?_, ?_, ?_⟩
    · intro guard _ seq
      simp [noPending seq]
    · intro guard _ listener listening
      cases listening
    · intro receiver member
      simp only [noMulticast] at member
      cases member
    · exact takeFatalError_recorded (wellFormed.failureRecorded (Or.inr (Or.inl phase)))

variable {order : ByteOrder} {state next : State} {action : Action}

/-- A step with a live driver keeps it alive, except for the last one. -/
theorem step_exited (taken : step? order state action = some next) (alive : state.driver ≠ .exited)
    (dies : next.driver = .exited) : action = .clearListeners := by
  cases stepped_of_step taken with
  | clearListeners _ => rfl
  | spawned _ | fanOutEvents _ | receivedFatal _ _ | clearPending _ => cases dies
  | received _ _ routed =>
      cases routed with
      | notified _ => cases dies
      | dropped _ | delivered _ _ => exact absurd dies alive
  | running | register _ | registerMany _ | subscribeEvents | subscribeMulticast _
  | deregister _ _ | dropRequest _ _ | dropEvents _ _ | dropMulticast _ _ | receivedEnobufs _ =>
      exact absurd dies alive

/-- What a step does once the driver has died: every channel stays closed
exactly when nothing registers. -/
theorem step_allClosed (wellFormed : WellFormed state)
    (taken : step? order state action = some next) (dead : state.driver = .exited)
    (closed : AllClosed state) :
    next.driver = .exited ∧ (AllClosed next ↔ RegistersInTime state action) := by
  cases stepped_of_step taken with
  | running => exact ⟨dead, iff_of_true closed trivial⟩
  | register _ | registerMany _ =>
      refine ⟨dead, (allClosed_registerMany wellFormed closed _).trans ?_⟩
      simp [RegistersInTime, dead]
  | deregister _ live => exact ⟨dead, iff_of_true (allClosed_deregister closed live) trivial⟩
  | dropRequest guard _ => exact ⟨dead, iff_of_true (allClosed_dropRequest closed guard) trivial⟩
  | subscribeEvents =>
      exact ⟨dead, iff_of_false (not_allClosed_subscribeEvents state) (fun inTime => inTime dead)⟩
  | dropEvents guard _ => exact ⟨dead, iff_of_true (allClosed_dropEvents closed guard) trivial⟩
  | subscribeMulticast group =>
      exact ⟨dead, iff_of_false (not_allClosed_subscribeMulticast state group)
        (fun inTime => inTime dead)⟩
  | dropMulticast receiver _ =>
      exact ⟨dead, iff_of_true (allClosed_dropMulticast closed receiver) trivial⟩
  | spawned phase | received _ phase _ | fanOutEvents phase | receivedEnobufs phase
  | receivedFatal _ phase | clearPending phase | clearListeners phase => cases dead.symm.trans phase

theorem step_failureReachesAll (wellFormed : WellFormed state) (reaches : FailureReachesAll state)
    (taken : step? order state action = some next) :
    FailureReachesAll next ↔ RegistersInTime state action := by
  by_cases dead : state.driver = .exited
  · obtain ⟨stays, exactly⟩ := step_allClosed wellFormed taken dead (reaches dead)
    rw [← exactly]
    exact ⟨fun nextReaches => nextReaches stays, fun closed _ => closed⟩
  · by_cases dies : next.driver = .exited
    · cases step_exited taken dead dies
      cases stepped_of_step taken with
      | clearListeners phase =>
          have exactly := allClosed_clearListeners wellFormed phase
          exact ⟨fun nextReaches => exactly.mp (nextReaches rfl),
            fun inTime _ => exactly.mpr inTime⟩
    · have inTime : RegistersInTime state action := by
        cases action with
        | register _ | subscribeEvents | subscribeMulticast _ => exact dead
        | registerMany _ => exact Or.inr dead
        | clearListeners =>
            cases stepped_of_step taken
            exact absurd rfl dies
        | _ => trivial
      exact iff_of_true (fun nextDead => absurd nextDead dies) inTime

/-- In every run of the dispatcher, every receiver observes the driver's death
in every state reached exactly when every step of the run registers in time. -/
theorem failureReachesAll_iff (order : ByteOrder) (steps : List (Action × State))
    (run : Execution (step? order) new steps) :
    Execution.Always FailureReachesAll new steps ↔ Execution.Guarded RegistersInTime new steps := by
  have preserved : ∀ state action next, WellFormed state →
      step? order state action = some next → WellFormed next := by
    intro state action next wellFormed taken
    exact wellFormed.step taken
  have exactly : ∀ state action next, WellFormed state →
      FailureReachesAll state → step? order state action = some next →
        (FailureReachesAll next ↔ RegistersInTime state action) := by
    intro state action next wellFormed reaches taken
    exact step_failureReachesAll wellFormed reaches taken
  have start : FailureReachesAll new := by
    intro dead
    cases dead
  exact run.always_iff_guarded preserved exactly WellFormed.new start

/-- The run in which a request registers and the driver then dies. -/
def requestThenFailure : List Action :=
  [.ensureDriver, .register 5, .receivedFatal "gone", .clearPending, .clearListeners]

/-- The request learns of the failure. -/
theorem failureReachesAll_iff_request : ∃ steps, steps.map Prod.fst = requestThenFailure ∧
        Execution (step? .little) new steps ∧
        Execution.Always FailureReachesAll new steps := by
  obtain ⟨steps, actions, run, inTime⟩ : ∃ steps, steps.map Prod.fst = requestThenFailure ∧
          Execution (step? .little) new steps ∧
          Execution.Guarded RegistersInTime new steps := by
    refine ⟨[(_, _), (_, _), (_, _), (_, _), (_, _)], rfl,
      .cons rfl (.cons rfl (.cons rfl (.cons rfl (.cons rfl (.nil _))))), ?_⟩
    simp [Execution.Guarded, RegistersInTime, new, State.ensureDriver,
      State.register, State.registerMany]
  exact ⟨steps, actions, run, (failureReachesAll_iff .little steps run).mpr inTime⟩

/-- The run in which the driver dies and a request then registers. -/
def failureThenRequest : List Action :=
  [.ensureDriver, .receivedFatal "gone", .clearPending, .clearListeners, .register 5]

/-- The request waits for ever: its channel keeps a sender and no driver. -/
theorem failureThenRequest_waits : ∃ final,
      run? (step? .little) new failureThenRequest = some final ∧ final.driver = .exited ∧
        ¬ FailureReachesAll final := by
  refine ⟨_, rfl, rfl, ?_⟩
  intro reaches
  exact (reaches rfl).requests _ (mem_cons_self ..) 5 rfl

end Nlink.Netlink.Dispatcher
