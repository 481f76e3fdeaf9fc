import Mathlib.Data.List.Nodup
import Nlink.Dispatcher

namespace Nlink.Netlink.Dispatcher

open Foundation List

/-!
# What the dispatcher routes to whom

The receivers that are alive say who is to get a datagram: a reply goes to the
request that has its seq registered, a notification to every event stream.  The
tables are the dispatcher's own record of this.  While the driver delivers, the
two agree, so that every channel holds what its receiver was due, in order of
arrival.
-/

/-- The messages of a datagram that parse, one at least, carry one seq. -/
def CarriesSeq (order : ByteOrder) (buf : Datagram) (seq : Nat) : Prop :=
  (∃ message, .ok message ∈ messageIter order buf) ∧
    ∀ message, .ok message ∈ messageIter order buf → message.1.nlmsgSeq = seq

variable {order : ByteOrder}

/-- A datagram is routed by the sequence number that it carries. -/
theorem routingSeq_of_carriesSeq {buf : Datagram} {seq : Nat} (carries : CarriesSeq order buf seq) :
    State.routingSeq order buf = some seq := by
  obtain ⟨⟨message, member⟩, same⟩ := carries
  cases found : State.routingSeq order buf with
  | none =>
      have skipped := findSome?_eq_none_iff.mp found _ member
      cases skipped
  | some first =>
      obtain ⟨result, resultMember, isFirst⟩ := exists_of_findSome?_eq_some found
      cases result with
      | ok message =>
          cases isFirst
          rw [same message resultMember]
      | error error => cases isFirst

/-- A live request has the seq registered, with this channel. -/
def State.Owns (state : State) (seq : Nat) (channel : ChannelId) : Prop :=
  ∃ guard ∈ state.requests, guard.channel = channel ∧ seq ∈ guard.seqs

/-- A live event stream has this channel. -/
def State.Listens (state : State) (channel : ChannelId) : Prop :=
  ∃ guard ∈ state.streams, guard.channel = channel

instance (state : State) (seq : Nat) (channel : ChannelId) : Decidable (state.Owns seq channel) :=
  inferInstanceAs (Decidable (∃ guard ∈ state.requests, guard.channel = channel ∧ seq ∈ guard.seqs))

instance (state : State) (channel : ChannelId) : Decidable (state.Listens channel) :=
  inferInstanceAs (Decidable (∃ guard ∈ state.streams, guard.channel = channel))

/-- Seqs are registered non-zero and distinct, from each other and from those
that live requests have registered. -/
def RegistersFresh (state : State) : Action → Prop
  | .register seq => seq ≠ 0 ∧ ∀ guard ∈ state.requests, seq ∉ guard.seqs
  | .registerMany seqs =>
      seqs.Nodup ∧ ∀ seq ∈ seqs, seq ≠ 0 ∧ ∀ guard ∈ state.requests, seq ∉ guard.seqs
  | _ => True

/-- What a step owes a channel. -/
def due (order : ByteOrder) (channel : ChannelId) (state : State) : Action → List Datagram
  | .received buf =>
      match State.routingSeq order buf with
      | some (seq + 1) => if state.Owns (seq + 1) channel then [buf] else []
      | _ => []
  | .fanOutEvents =>
      match state.driver with
      | .fanningOut buf => if state.Listens channel then [buf] else []
      | _ => []
  | _ => []

/-- The datagrams that the driver received, in order of arrival. -/
def arrivals (steps : List (Action × State)) : List Datagram :=
  steps.filterMap fun step =>
    match step.1 with
    | .received buf => some buf
    | _ => none

/-- Each channel has one receiver, and each seq one owner. -/
structure Exclusive (state : State) : Prop where
  channels : (state.requests.map PendingGuard.channel ++ state.streams.map EventGuard.channel).Nodup
  owners : ∀ first ∈ state.requests, ∀ second ∈ state.requests, ∀ seq,
    seq ∈ first.seqs → seq ∈ second.seqs → first = second

/-- A new request owns the seqs, and the table has them for its channel. -/
def Registers (state next : State) (seqs : List Nat) : Prop :=
  next.queues = state.queues ∧ ∃ guard, next.requests = guard :: state.requests ∧
    guard.seqs = seqs ∧ ∀ seq ∈ seqs, next.pending seq = some guard.channel

/-- What each step does to the channels and to the tables. -/
def Routes (order : ByteOrder) (state : State) (action : Action) (next : State) : Prop :=
  match action with
  | .register seq => Registers state next [seq]
  | .registerMany seqs => Registers state next seqs
  | .subscribeEvents =>
      next.queues = state.queues ∧ ∃ guard, next.streams = guard :: state.streams ∧
        next.eventListeners = (guard.id, guard.channel) :: state.eventListeners
  | .received buf =>
      (∀ seq, CarriesSeq order buf seq → seq ≠ 0 → ∀ channel, next.queues channel =
          state.queues channel ++
            if state.Owns seq channel then [buf] else []) ∧
      (CarriesSeq order buf 0 → next.driver = .fanningOut buf ∧ next.queues = state.queues)
  | .fanOutEvents =>
      ∃ buf, state.driver = .fanningOut buf ∧ ∀ channel, next.queues channel =
          state.queues channel ++ if state.Listens channel then [buf] else []
  | .deregister guard =>
      next.queues = state.queues ∧ next.eventListeners = state.eventListeners ∧
        ∀ seq, next.pending seq =
          if guard.seqs.head? = some seq then none else state.pending seq
  | .dropRequest guard =>
      next.queues = state.queues ∧ next.eventListeners = state.eventListeners ∧
        ∀ seq, next.pending seq =
          if state.pending seq = some guard.channel then none
          else state.pending seq
  | .dropEvents guard =>
      next.queues = state.queues ∧ next.pending = state.pending ∧ next.eventListeners =
          state.eventListeners.filter fun listener => listener.2 != guard.channel
  | _ => next.queues = state.queues

/-- The notification that the driver has received and not yet fanned out. -/
def State.inTransit (state : State) : List Datagram :=
  match state.driver with
  | .fanningOut buf => [buf]
  | _ => []

/-- The driver has not failed. -/
def State.Alive (state : State) : Prop :=
  match state.driver with
  | .notSpawned | .receiving | .fanningOut _ => True
  | .clearingPending | .clearingListeners | .exited => False

/-- The receivers' channels are distinct, and the listeners' table holds the
event streams. -/
structure StreamTable (state : State) : Prop where
  base : WellFormed state
  channels : (state.requests.map PendingGuard.channel ++ state.streams.map EventGuard.channel).Nodup
  idsNodup : (state.streams.map EventGuard.id).Nodup
  idsUsed : ∀ guard ∈ state.streams, guard.id < state.nextListenerId
  listenerOwned : ∀ listener ∈ state.eventListeners,
    ∃ guard ∈ state.streams, (guard.id, guard.channel) = listener
  listenerOf : state.Alive → ∀ guard ∈ state.streams,
    (guard.id, guard.channel) ∈ state.eventListeners

namespace StreamTable

theorem new : StreamTable Dispatcher.new where
  base := WellFormed.new
  channels := nodup_nil
  idsNodup := nodup_nil
  idsUsed := fun _ member => nomatch member
  listenerOwned := fun _ member => nomatch member
  listenerOf := fun _ _ member => nomatch member

variable {state next : State}

section

variable (table : StreamTable state)

include table

theorem ofListeners (base : WellFormed next)
    (sameListeners : next.Alive → next.eventListeners = state.eventListeners)
    (fewerListeners : next.eventListeners ⊆ state.eventListeners)
    (sameId : next.nextListenerId = state.nextListenerId)
    (sameRequests : next.requests = state.requests) (sameStreams : next.streams = state.streams)
    (alive : next.Alive → state.Alive) :
    StreamTable next where
  base := base
  channels := by
    rw [sameRequests, sameStreams]
    exact table.channels
  idsNodup := by
    rw [sameStreams]
    exact table.idsNodup
  idsUsed := by
    rw [sameStreams, sameId]
    exact table.idsUsed
  listenerOwned := by
    rw [sameStreams]
    exact fun listener member => table.listenerOwned listener (fewerListeners member)
  listenerOf := by
    intro living
    rw [sameListeners living, sameStreams]
    exact table.listenerOf (alive living)

theorem ofRequests (base : WellFormed next) (channels :
      (next.requests.map PendingGuard.channel ++ state.streams.map EventGuard.channel).Nodup)
    (sameListeners : next.eventListeners = state.eventListeners)
    (sameId : next.nextListenerId = state.nextListenerId)
    (sameStreams : next.streams = state.streams) (alive : next.Alive → state.Alive) :
    StreamTable next where
  base := base
  channels := by
    rw [sameStreams]
    exact channels
  idsNodup := by
    rw [sameStreams]
    exact table.idsNodup
  idsUsed := by
    rw [sameStreams, sameId]
    exact table.idsUsed
  listenerOwned := by
    rw [sameListeners, sameStreams]
    exact table.listenerOwned
  listenerOf := by
    rw [sameListeners, sameStreams]
    exact fun living => table.listenerOf (alive living)

theorem request_eq {first second : PendingGuard}
    (firstLive : first ∈ state.requests) (secondLive : second ∈ state.requests)
    (same : first.channel = second.channel) : first = second :=
  inj_on_of_nodup_map (List.Nodup.of_append_left table.channels) firstLive secondLive same

theorem stream_eq {first second : EventGuard}
    (firstLive : first ∈ state.streams) (secondLive : second ∈ state.streams)
    (same : first.channel = second.channel) : first = second :=
  inj_on_of_nodup_map (List.Nodup.of_append_right table.channels) firstLive secondLive same

theorem requestsNodup : state.requests.Nodup :=
  (List.Nodup.of_append_left table.channels).of_map _

theorem streamsNodup : state.streams.Nodup :=
  (List.Nodup.of_append_right table.channels).of_map _

theorem listener_id_iff {guard : EventGuard}
    (live : guard ∈ state.streams) {listener : Nat × ChannelId}
    (member : listener ∈ state.eventListeners) :
    listener.1 = guard.id ↔ listener.2 = guard.channel := by
  obtain ⟨owner, ownerLive, rfl⟩ := table.listenerOwned listener member
  constructor
  · intro sameId
    rw [inj_on_of_nodup_map table.idsNodup ownerLive live sameId]
  · intro sameChannel
    rw [table.stream_eq ownerLive live sameChannel]

theorem nextChannel_unused : state.nextChannel ∉
      state.requests.map PendingGuard.channel ++ state.streams.map EventGuard.channel := by
  intro used
  rcases mem_append.mp used with request | stream
  · obtain ⟨guard, live, isNew⟩ := mem_map.mp request
    exact absurd isNew (Nat.ne_of_lt (table.base.requestsUsed guard live))
  · obtain ⟨guard, live, isNew⟩ := mem_map.mp stream
    exact absurd isNew (Nat.ne_of_lt (table.base.streamsUsed guard live))

theorem nodup_channels_erase {guard : PendingGuard} (live : guard ∈ state.requests) :
    (guard.channel ::
      ((state.requests.erase guard).map PendingGuard.channel ++
        state.streams.map EventGuard.channel)).Nodup := by
  have order :
      (state.requests.map PendingGuard.channel ++ state.streams.map EventGuard.channel).Perm
      ((guard :: state.requests.erase guard).map PendingGuard.channel ++
        state.streams.map EventGuard.channel) :=
    ((perm_cons_erase live).map _).append_right _
  exact order.nodup_iff.mp table.channels

theorem subscribeEvents : StreamTable state.subscribeEvents where
  base := table.base.subscribeEvents
  channels := nodup_middle.mpr (nodup_cons.mpr ⟨table.nextChannel_unused, table.channels⟩)
  idsNodup := by
    refine nodup_cons.mpr ⟨?_, table.idsNodup⟩
    intro used
    obtain ⟨guard, live, isNew⟩ := mem_map.mp used
    exact absurd isNew (Nat.ne_of_lt (table.idsUsed guard live))
  idsUsed := by
    intro guard live
    rcases mem_cons.mp live with rfl | live
    · exact Nat.lt_succ_self _
    · exact Nat.lt_succ_of_lt (table.idsUsed guard live)
  listenerOwned := by
    intro listener member
    rcases mem_cons.mp member with rfl | member
    · exact ⟨_, mem_cons_self .., rfl⟩
    · obtain ⟨guard, live, isListener⟩ := table.listenerOwned listener member
      exact ⟨guard, mem_cons_of_mem _ live, isListener⟩
  listenerOf := by
    intro alive guard live
    rcases mem_cons.mp live with rfl | live
    · exact mem_cons_self ..
    · exact mem_cons_of_mem _ (table.listenerOf alive guard live)

theorem dropEvents {guard : EventGuard} (live : guard ∈ state.streams) :
    StreamTable (state.dropEvents guard) where
  base := table.base.dropEvents guard
  channels := table.channels.sublist ((List.Sublist.refl _).append (erase_sublist.map _))
  idsNodup := table.idsNodup.sublist (erase_sublist.map _)
  idsUsed := by
    intro other otherLive
    exact table.idsUsed other (mem_of_mem_erase otherLive)
  listenerOwned := by
    intro listener member
    obtain ⟨member, kept⟩ := mem_filter.mp member
    obtain ⟨owner, ownerLive, rfl⟩ := table.listenerOwned listener member
    have different : owner ≠ guard := by
      rintro rfl
      simp at kept
    exact ⟨owner, (mem_erase_of_ne different).mpr ownerLive, rfl⟩
  listenerOf := by
    intro alive other otherLive
    obtain ⟨different, otherLive⟩ := table.streamsNodup.mem_erase_iff.mp otherLive
    refine mem_filter.mpr ⟨table.listenerOf alive other otherLive, ?_⟩
    have otherId : other.id ≠ guard.id := fun sameId =>
      different (inj_on_of_nodup_map table.idsNodup otherLive live sameId)
    simpa using otherId

theorem fanOutEvents_listeners (buf : Datagram) :
    (state.fanOutEvents buf).eventListeners = state.eventListeners := by
  refine filter_eq_self.mpr ?_
  intro listener member
  obtain ⟨guard, live, rfl⟩ := table.listenerOwned listener member
  exact any_eq_true.mpr ⟨guard, live, by simp⟩

theorem queues_fanOutEvents (alive : state.Alive) (buf : Datagram) (channel : ChannelId) :
    (state.fanOutEvents buf).queues channel =
      state.queues channel ++ if state.Listens channel then [buf] else [] := by
  have listening : (state.fanOutEvents buf).eventListeners.any
        (fun listener => listener.2 == channel) = true ↔ state.Listens channel := by
    rw [table.fanOutEvents_listeners, any_eq_true]
    constructor
    · rintro ⟨listener, member, isChannel⟩
      obtain ⟨guard, live, rfl⟩ := table.listenerOwned listener member
      exact ⟨guard, live, by simpa using isChannel⟩
    · rintro ⟨guard, live, rfl⟩
      exact ⟨_, table.listenerOf alive guard live, by simp⟩
  by_cases listens : state.Listens channel
  · have any := listening.mpr listens
    simp only [State.fanOutEvents] at any ⊢
    rw [if_pos any, if_pos listens]
  · have none := fun any => listens (listening.mp any)
    simp only [State.fanOutEvents] at none ⊢
    rw [if_neg none, if_neg listens, List.append_nil]

/-- Every step keeps the table of the event streams. -/
theorem step {order : ByteOrder} {action : Action}
    (taken : step? order state action = some next) : StreamTable next := by
  have base : WellFormed next := table.base.step taken
  cases stepped_of_step taken with
  | spawned phase =>
      exact table.ofRequests base table.channels rfl rfl rfl fun _ => by simp [State.Alive, phase]
  | running => exact table
  | register _ | registerMany _ =>
      exact table.ofRequests base (nodup_cons.mpr ⟨table.nextChannel_unused, table.channels⟩)
        rfl rfl rfl id
  | deregister _ live =>
      exact table.ofRequests base (table.nodup_channels_erase live) rfl rfl rfl id
  | dropRequest _ live =>
      exact table.ofRequests base (nodup_cons.mp (table.nodup_channels_erase live)).2 rfl rfl rfl id
  | subscribeEvents => exact table.subscribeEvents
  | dropEvents _ live => exact table.dropEvents live
  | subscribeMulticast _ | dropMulticast _ _ | receivedEnobufs _ =>
      exact table.ofRequests base table.channels rfl rfl rfl id
  | received _ receiving routed =>
      have alive : state.Alive := by simp [State.Alive, receiving]
      cases routed with
      | dropped _ => exact table
      | notified _ | delivered _ _ =>
          exact table.ofRequests base table.channels rfl rfl rfl fun _ => alive
  | @fanOutEvents buf phase =>
      exact table.ofRequests base table.channels (table.fanOutEvents_listeners buf) rfl rfl
        fun _ => by simp [State.Alive, phase]
  | receivedFatal _ _ | clearPending _ =>
      exact table.ofRequests base table.channels rfl rfl rfl False.elim
  | clearListeners _ =>
      exact table.ofListeners base False.elim (nil_subset _) rfl rfl rfl False.elim

theorem request_channel_ne {guard : PendingGuard}
    (live : guard ∈ state.requests) {channel : ChannelId} (listens : state.Listens channel) :
    guard.channel ≠ channel := by
  obtain ⟨stream, streamLive, rfl⟩ := listens
  exact (nodup_append.mp table.channels).2.2 _ (mem_map_of_mem live) _ (mem_map_of_mem streamLive)

end

end StreamTable

/-- The notification that a step passes on to the event streams. -/
def notifies (state : State) : Action → List Datagram
  | .fanOutEvents => state.inTransit
  | _ => []

variable {state next : State} {action : Action}

/-- What a step does for a stream that is alive after it: it passes a
notification on, or the stream is new. -/
theorem StreamTable.queues_of_listens (table : StreamTable state)
    (taken : step? order state action = some next) {channel : ChannelId}
    (listens : next.Listens channel) :
    (state.Listens channel ∧ next.queues channel = state.queues channel ++ notifies state action) ∨
      (¬ state.Listens channel ∧ channel = state.nextChannel ∧
        next.queues channel = state.queues channel) := by
  have unsent (queues : next.queues channel = state.queues channel)
      (listens : state.Listens channel) (silent : notifies state action = []) :
      state.Listens channel ∧
        next.queues channel = state.queues channel ++ notifies state action :=
    ⟨listens, by rw [silent, List.append_nil, queues]⟩
  cases stepped_of_step taken with
  | spawned _ | running | register _ | registerMany _ | subscribeMulticast _ | deregister _ _
  | dropRequest _ _ | dropMulticast _ _ | receivedEnobufs _ | receivedFatal _ _ | clearPending _
  | clearListeners _ => exact Or.inl (unsent rfl listens rfl)
  | subscribeEvents =>
      obtain ⟨guard, live, rfl⟩ := listens
      rcases mem_cons.mp live with rfl | live
      · right
        refine ⟨?_, rfl, rfl⟩
        rintro ⟨other, otherLive, same⟩
        exact absurd same (Nat.ne_of_lt (table.base.streamsUsed other otherLive))
      · exact Or.inl (unsent rfl ⟨guard, live, rfl⟩ rfl)
  | dropEvents _ _ =>
      obtain ⟨guard, live, rfl⟩ := listens
      exact Or.inl (unsent rfl ⟨guard, mem_of_mem_erase live, rfl⟩ rfl)
  | received _ _ routed =>
      cases routed with
      | dropped _ | notified _ => exact Or.inl (unsent rfl listens rfl)
      | delivered _ registered =>
          obtain ⟨guard, live, isOwner, _⟩ := table.base.pendingOwned _ _ registered
          have other : channel ≠ _ := (isOwner ▸ table.request_channel_ne live listens).symm
          exact Or.inl (unsent (if_neg other) listens rfl)
  | @fanOutEvents buf phase =>
      have listening : state.Listens channel := listens
      have alive : state.Alive := by simp [State.Alive, phase]
      left
      refine ⟨listening, ?_⟩
      have appended := table.queues_fanOutEvents alive buf channel
      rw [if_pos listening] at appended
      simpa [notifies, State.inTransit, phase] using appended

/-- No step sends to a channel that is not in use yet. -/
theorem StreamTable.queues_of_unused (table : StreamTable state)
    (taken : step? order state action = some next) :
    state.nextChannel ≤ next.nextChannel ∧ ∀ channel, state.nextChannel ≤ channel →
        next.queues channel = state.queues channel := by
  cases stepped_of_step taken with
  | register _ | registerMany _ | subscribeEvents | subscribeMulticast _ =>
      exact ⟨Nat.le_succ _, fun _ _ => rfl⟩
  | spawned _ | running | deregister _ _ | dropRequest _ _ | dropEvents _ _ | dropMulticast _ _
  | receivedEnobufs _ | receivedFatal _ _ | clearPending _ | clearListeners _ =>
      exact ⟨Nat.le_refl _, fun _ _ => rfl⟩
  | received _ _ routed =>
      cases routed with
      | dropped _ | notified _ => exact ⟨Nat.le_refl _, fun _ _ => rfl⟩
      | delivered _ registered =>
          obtain ⟨guard, live, isOwner, _⟩ := table.base.pendingOwned _ _ registered
          have used := table.base.requestsUsed guard live
          rw [isOwner] at used
          exact ⟨Nat.le_refl _, fun channel unused =>
            if_neg (Nat.ne_of_lt (Nat.lt_of_lt_of_le used unused)).symm⟩
  | @fanOutEvents buf phase =>
      have alive : state.Alive := by simp [State.Alive, phase]
      refine ⟨Nat.le_refl _, fun channel unused => ?_⟩
      have silent : ¬ state.Listens channel := by
        rintro ⟨guard, live, rfl⟩
        exact Nat.not_lt.mpr unused (table.base.streamsUsed guard live)
      have appended := table.queues_fanOutEvents alive buf channel
      rw [if_neg silent, List.append_nil] at appended
      exact appended

/-- The tables hold what the receivers registered. -/
structure Registry (state : State) : Prop where
  table : StreamTable state
  owners : ∀ first ∈ state.requests, ∀ second ∈ state.requests, ∀ seq,
    seq ∈ first.seqs → seq ∈ second.seqs → first = second
  seqsNodup : ∀ guard ∈ state.requests, guard.seqs.Nodup
  pendingOf : state.Alive → ∀ guard ∈ state.requests, ∀ seq ∈ guard.seqs,
    state.pending seq = some guard.channel

namespace Registry

theorem new : Registry Dispatcher.new where
  table := StreamTable.new
  owners := fun _ member => nomatch member
  seqsNodup := fun _ member => nomatch member
  pendingOf := fun _ _ member => nomatch member

variable {state next : State}

theorem exclusive (registry : Registry state) : Exclusive state :=
  ⟨registry.table.channels, registry.owners⟩

theorem ofPending (registry : Registry state) (table : StreamTable next)
    (samePending : next.Alive → next.pending = state.pending)
    (sameRequests : next.requests = state.requests) (alive : next.Alive → state.Alive) :
    Registry next where
  table := table
  owners := by
    rw [sameRequests]
    exact registry.owners
  seqsNodup := by
    rw [sameRequests]
    exact registry.seqsNodup
  pendingOf := by
    intro living
    rw [samePending living, sameRequests]
    exact registry.pendingOf (alive living)

theorem pending_eq_some_iff (registry : Registry state) (alive : state.Alive) (seq : Nat)
    (channel : ChannelId) : state.pending seq = some channel ↔ state.Owns seq channel := by
  constructor
  · exact registry.table.base.pendingOwned seq channel
  · rintro ⟨guard, live, rfl, owned⟩
    exact registry.pendingOf alive guard live seq owned

variable {guard : PendingGuard}

section

variable (registry : Registry state)

include registry

theorem pending_eq_channel_iff (live : guard ∈ state.requests) (seq : Nat) :
    state.pending seq = some guard.channel ↔ seq ∈ guard.seqs ∧ state.pending seq ≠ none := by
  constructor
  · intro registered
    obtain ⟨owner, ownerLive, isOwner, owned⟩ := registry.table.base.pendingOwned seq _ registered
    cases registry.table.request_eq ownerLive live isOwner
    exact ⟨owned, by simp [registered]⟩
  · rintro ⟨owned, entry⟩
    obtain ⟨channel, registered⟩ := Option.ne_none_iff_exists'.mp entry
    obtain ⟨owner, ownerLive, isOwner, ownerOwns⟩ :=
      registry.table.base.pendingOwned seq channel registered
    cases registry.owners owner ownerLive guard live seq ownerOwns owned
    rw [registered, isOwner]

theorem not_mem_of_other {guard other : PendingGuard}
    (live : guard ∈ state.requests) (otherLive : other ∈ state.requests.erase guard) {seq : Nat}
    (owned : seq ∈ other.seqs) : seq ∉ guard.seqs := by
  intro guardOwns
  obtain ⟨different, otherLive⟩ := registry.table.requestsNodup.mem_erase_iff.mp otherLive
  exact different (registry.owners other otherLive guard live seq owned guardOwns)

theorem registerMany {seqs : List Nat}
    (table : StreamTable (state.registerMany seqs)) (distinct : seqs.Nodup)
    (free : ∀ seq ∈ seqs, ∀ guard ∈ state.requests, seq ∉ guard.seqs) :
    Registry (state.registerMany seqs) where
  table := table
  owners := by
    intro first firstLive second secondLive seq firstOwns secondOwns
    rcases mem_cons.mp firstLive with rfl | firstLive <;>
      rcases mem_cons.mp secondLive with rfl | secondLive
    · rfl
    · exact absurd secondOwns (free seq firstOwns second secondLive)
    · exact absurd firstOwns (free seq secondOwns first firstLive)
    · exact registry.owners first firstLive second secondLive seq firstOwns secondOwns
  seqsNodup := by
    intro guard live
    rcases mem_cons.mp live with rfl | live
    · exact distinct
    · exact registry.seqsNodup guard live
  pendingOf := by
    intro alive guard live seq owned
    simp only [State.registerMany]
    rcases mem_cons.mp live with rfl | live
    · rw [if_pos owned]
    · rw [if_neg fun new => free seq new guard live owned]
      exact registry.pendingOf alive guard live seq owned

theorem deregister (table : StreamTable (state.deregister guard)) (live : guard ∈ state.requests) :
    Registry (state.deregister guard) where
  table := table
  owners := by
    intro first firstLive second secondLive seq firstOwns secondOwns
    rcases mem_cons.mp firstLive with rfl | firstLive <;>
      rcases mem_cons.mp secondLive with rfl | secondLive
    · rfl
    · exact absurd (mem_of_mem_tail firstOwns)
        (registry.not_mem_of_other live secondLive secondOwns)
    · exact absurd (mem_of_mem_tail secondOwns) (registry.not_mem_of_other live firstLive firstOwns)
    · exact registry.owners first (mem_of_mem_erase firstLive)
        second (mem_of_mem_erase secondLive) seq firstOwns secondOwns
  seqsNodup := by
    intro other otherLive
    rcases mem_cons.mp otherLive with rfl | otherLive
    · exact (registry.seqsNodup guard live).tail
    · exact registry.seqsNodup other (mem_of_mem_erase otherLive)
  pendingOf := by
    intro alive other otherLive seq owned
    simp only [State.deregister]
    rcases mem_cons.mp otherLive with rfl | otherLive
    · have notHead : guard.seqs.head? ≠ some seq := by
        have distinct := registry.seqsNodup guard live
        cases seqs : guard.seqs with
        | nil => simp
        | cons head rest =>
            rw [seqs] at distinct owned
            rintro ⟨⟩
            exact (nodup_cons.mp distinct).1 owned
      rw [if_neg notHead]
      exact registry.pendingOf alive guard live seq (mem_of_mem_tail owned)
    · have notHead : guard.seqs.head? ≠ some seq := fun isHead =>
        registry.not_mem_of_other live otherLive owned (mem_of_head? isHead)
      rw [if_neg notHead]
      exact registry.pendingOf alive other (mem_of_mem_erase otherLive) seq owned

theorem dropRequest (table : StreamTable (state.dropRequest guard))
    (live : guard ∈ state.requests) :
    Registry (state.dropRequest guard) where
  table := table
  owners := by
    intro first firstLive second secondLive
    exact registry.owners first (mem_of_mem_erase firstLive) second (mem_of_mem_erase secondLive)
  seqsNodup := by
    intro other otherLive
    exact registry.seqsNodup other (mem_of_mem_erase otherLive)
  pendingOf := by
    intro alive other otherLive seq owned
    simp only [State.dropRequest]
    rw [if_neg (registry.not_mem_of_other live otherLive owned)]
    exact registry.pendingOf alive other (mem_of_mem_erase otherLive) seq owned

end

variable {order : ByteOrder} {action : Action}

/-- Every step that registers fresh seqs keeps the tables in agreement. -/
theorem step (registry : Registry state) (fresh : RegistersFresh state action)
    (taken : step? order state action = some next) : Registry next := by
  have table : StreamTable next := registry.table.step taken
  cases stepped_of_step taken with
  | spawned phase =>
      exact registry.ofPending table (fun _ => rfl) rfl fun _ => by simp [State.Alive, phase]
  | running => exact registry
  | register seq =>
      refine registry.registerMany table (nodup_singleton seq) ?_
      intro other member
      cases mem_singleton.mp member
      exact fresh.2
  | registerMany seqs =>
      exact registry.registerMany table fresh.1 fun seq member => (fresh.2 seq member).2
  | deregister _ live => exact registry.deregister table live
  | dropRequest _ live => exact registry.dropRequest table live
  | subscribeEvents | subscribeMulticast _ | dropEvents _ _ | dropMulticast _ _
  | receivedEnobufs _ => exact registry.ofPending table (fun _ => rfl) rfl id
  | received _ receiving routed =>
      have alive : state.Alive := by simp [State.Alive, receiving]
      cases routed with
      | dropped _ => exact registry
      | notified _ | delivered _ _ =>
          exact registry.ofPending table (fun _ => rfl) rfl fun _ => alive
  | fanOutEvents phase =>
      exact registry.ofPending table (fun _ => rfl) rfl fun _ => by simp [State.Alive, phase]
  | receivedFatal _ _ | clearPending _ | clearListeners _ =>
      exact registry.ofPending table False.elim rfl False.elim

theorem registers_registerMany (seqs : List Nat) :
    Registers state (state.registerMany seqs) seqs :=
  ⟨rfl, _, rfl, rfl, fun _ member => if_pos member⟩

theorem queues_routed (registry : Registry state) (alive : state.Alive) {buf : Datagram}
    (routed : Routed order state buf next) {seq : Nat}
    (isSeq : State.routingSeq order buf = some (seq + 1)) (channel : ChannelId) :
    next.queues channel =
      state.queues channel ++ if state.Owns (seq + 1) channel then [buf] else [] := by
  have table := registry.pending_eq_some_iff alive (seq + 1) channel
  cases routed with
  | dropped nobody =>
      have unowned : ¬ state.Owns (seq + 1) channel := by
        rw [← table, (nobody _ isSeq).2]
        simp
      rw [if_neg unowned, List.append_nil]
  | notified zero => cases isSeq.symm.trans zero
  | @delivered other owner isOther registered =>
      cases isSeq.symm.trans isOther
      rw [registered, Option.some.injEq, eq_comm] at table
      simp only [table]
      split
      · rfl
      · exact (List.append_nil _).symm

/-- Every step routes as it should. -/
theorem routes (registry : Registry state) (taken : step? order state action = some next) :
    Routes order state action next := by
  cases stepped_of_step taken with
  | register seq => exact registers_registerMany [seq]
  | registerMany seqs => exact registers_registerMany seqs
  | subscribeEvents => exact ⟨rfl, _, rfl, rfl⟩
  | spawned _ | running | subscribeMulticast _ | dropMulticast _ _ | receivedEnobufs _
  | receivedFatal _ _ | clearPending _ | clearListeners _ => rfl
  | deregister _ _ => exact ⟨rfl, rfl, fun _ => rfl⟩
  | dropRequest guard live =>
      refine ⟨rfl, rfl, ?_⟩
      intro seq
      have own := registry.pending_eq_channel_iff live seq
      simp only [State.dropRequest]
      by_cases owned : seq ∈ guard.seqs
      · rw [if_pos owned]
        split
        · rfl
        · rename_i notOwn
          exact (not_not.mp fun entry => notOwn (own.mpr ⟨owned, entry⟩)).symm
      · rw [if_neg owned, if_neg fun entry => owned (own.mp entry).1]
  | dropEvents guard live =>
      refine ⟨rfl, rfl, ?_⟩
      refine filter_congr ?_
      intro listener member
      have own := registry.table.listener_id_iff live member
      simp only [bne, Bool.not_inj_iff]
      rw [Bool.eq_iff_iff, beq_iff_eq, beq_iff_eq]
      exact own
  | received buf receiving routed =>
      have alive : state.Alive := by simp [State.Alive, receiving]
      constructor
      · intro seq carries nonZero channel
        obtain ⟨lower, rfl⟩ := Nat.exists_eq_succ_of_ne_zero nonZero
        exact registry.queues_routed alive routed (routingSeq_of_carriesSeq carries) channel
      · intro carries
        have zero := routingSeq_of_carriesSeq carries
        cases routed with
        | dropped nobody => exact absurd rfl (nobody 0 zero).1
        | notified _ => exact ⟨rfl, rfl⟩
        | delivered isSeq _ => cases zero.symm.trans isSeq
  | @fanOutEvents buf phase =>
      exact ⟨buf, phase, registry.table.queues_fanOutEvents (by simp [State.Alive, phase]) buf⟩

theorem appends_due (registry : Registry state) (taken : step? order state action = some next)
    (channel : ChannelId) :
    next.queues channel = state.queues channel ++ due order channel state action := by
  have routed := registry.routes taken
  cases action with
  | received buf =>
      obtain ⟨receiving, reached⟩ : state.driver = .receiving ∧ Routed order state buf next := by
        cases stepped_of_step taken with
        | received _ receiving reached => exact ⟨receiving, reached⟩
      have alive : state.Alive := by simp [State.Alive, receiving]
      rw [due]
      split
      · rename_i seq isSeq
        exact registry.queues_routed alive reached isSeq channel
      · rename_i unnumbered
        cases reached with
        | dropped _ | notified _ => exact (List.append_nil _).symm
        | delivered isSeq _ => exact absurd isSeq (unnumbered _)
  | fanOutEvents =>
      obtain ⟨buf, phase, appended⟩ := routed
      simp only [appended channel, due, phase]
  | register _ | registerMany _ | subscribeEvents | deregister _ | dropRequest _ | dropEvents _ =>
      rw [routed.1]
      exact (List.append_nil _).symm
  | ensureDriver | subscribeMulticast _ | dropMulticast _ | receivedEnobufs | receivedFatal _
  | clearPending | clearListeners =>
      have same : next.queues = state.queues := routed
      rw [same]
      exact (List.append_nil _).symm

end Registry

/-- What a step owes, and then has in transit, it had in transit or received. -/
theorem due_append_inTransit (taken : step? order state action = some next) (channel : ChannelId) :
    (due order channel state action ++ next.inTransit).Sublist
      (state.inTransit ++ arrivals [(action, next)]) := by
  cases stepped_of_step taken with
  | received buf receiving routed =>
      have idle : state.inTransit = [] := by simp [State.inTransit, receiving]
      rw [idle]
      cases routed with
      | dropped nobody =>
          rw [idle, List.append_nil, due]
          split
          · split
            · exact List.Sublist.refl _
            · exact nil_sublist _
          · exact nil_sublist _
      | notified zero => simp [due, zero, State.inTransit, arrivals]
      | delivered isSeq _ =>
          change (due order channel state _ ++ state.inTransit).Sublist _
          rw [idle, List.append_nil]
          simp only [due, isSeq]
          split
          · exact List.Sublist.refl _
          · exact nil_sublist _
  | @fanOutEvents buf phase =>
      simp only [due, phase]
      split
      · simp [State.inTransit, phase]
      · simp [State.inTransit]
  | spawned _ => exact nil_sublist _
  | running | register _ | registerMany _ | subscribeEvents | subscribeMulticast _
  | deregister _ _ | dropRequest _ _ | dropEvents _ _ | dropMulticast _ _ | receivedEnobufs _ =>
      exact sublist_append_left ..
  | receivedFatal _ _ | clearPending _ | clearListeners _ => exact nil_sublist _

theorem contributions_due_sublist {state : State} {steps : List (Action × State)}
    (run : Execution (step? order) state steps) (channel : ChannelId) :
    (Execution.contributions (due order channel) state steps).Sublist
      (state.inTransit ++ arrivals steps) := by
  induction run with
  | nil state => exact nil_sublist _
  | @cons state next action rest first _ ih =>
      have head := due_append_inTransit first channel
      have later :
          (due order channel state action ++
              Execution.contributions (due order channel) next rest).Sublist
            (due order channel state action ++ (next.inTransit ++ arrivals rest)) :=
        ih.append_left _
      have all :
          (due order channel state action ++ (next.inTransit ++ arrivals rest)).Sublist
            (state.inTransit ++ (arrivals [(action, next)] ++ arrivals rest)) := by
        rw [← List.append_assoc, ← List.append_assoc]
        exact head.append_right _
      have split : arrivals ((action, next) :: rest) =
            arrivals [(action, next)] ++ arrivals rest := by
        rw [arrivals, arrivals, arrivals, ← filterMap_append]
        rfl
      rw [split]
      exact later.trans all

/-- In every run in which seqs are registered fresh, each channel has one
receiver and each seq one owner, every step routes as it should, and each
channel holds what its receiver was due, once and in order of arrival. -/
theorem routes_exactly (order : ByteOrder) (steps : List (Action × State))
    (run : Execution (step? order) new steps) (fresh : Execution.Guarded RegistersFresh new steps) :
    Execution.Always Exclusive new steps ∧ Execution.EachStep (Routes order) new steps ∧ ∀ channel,
        (Execution.final new steps).queues channel =
          Execution.contributions (due order channel) new steps ∧
        (Execution.contributions (due order channel) new steps).Sublist (arrivals steps) := by
  have preserved : ∀ state action next, Registry state →
      RegistersFresh state action → step? order state action = some next → Registry next := by
    intro state action next registry isFresh taken
    exact registry.step isFresh taken
  have related : ∀ state action next, Registry state →
      RegistersFresh state action → step? order state action = some next →
        Routes order state action next ∧ ∀ channel, next.queues channel =
            state.queues channel ++ due order channel state action := by
    intro state action next registry _ taken
    exact ⟨registry.routes taken, registry.appends_due taken⟩
  obtain ⟨along, each⟩ := run.eachStep_of_preserved preserved related fresh Registry.new
  refine ⟨along.mono fun _ registry => registry.exclusive, each.mono fun _ _ _ step => step.1, ?_⟩
  intro channel
  constructor
  · exact Execution.log_final (fun state : State => state.queues channel)
      (each.mono fun _ _ _ step => step.2 channel)
  · exact contributions_due_sublist run channel

/-- Two requests and a stream register, and one request is dropped before its
reply arrives. -/
def replyAndNotification : List Action :=
  [.ensureDriver, .registerMany [5, 6], .register 7, .subscribeEvents,
    .dropRequest { channel := 1, seqs := [7] },
    .received [16, 0, 0, 0, 2, 0, 0, 0, 6, 0, 0, 0, 1, 0, 0, 0],
    .received [16, 0, 0, 0, 2, 0, 0, 0, 7, 0, 0, 0, 1, 0, 0, 0],
    .received [16, 0, 0, 0, 2, 0, 0, 0, 0, 0, 0, 0, 1, 0, 0, 0],
    .fanOutEvents]

/-- The reply reaches its request, the notification the stream, and the late
reply nobody. -/
theorem routes_exactly_reply : ∃ steps, steps.map Prod.fst = replyAndNotification ∧
        Execution.EachStep (Routes .little) new steps ∧
        ∀ channel, (Execution.final new steps).queues channel =
            Execution.contributions (due .little channel) new steps := by
  obtain ⟨steps, actions, run, fresh⟩ : ∃ steps, steps.map Prod.fst = replyAndNotification ∧
          Execution (step? .little) new steps ∧
          Execution.Guarded RegistersFresh new steps := by
    refine ⟨[(_, _), (_, _), (_, _), (_, _), (_, _), (_, _), (_, _), (_, _), (_, _)], rfl,
      .cons rfl (.cons rfl (.cons rfl (.cons rfl (.cons rfl (.cons rfl
        (.cons rfl (.cons rfl (.cons rfl (.nil _))))))))), ?_⟩
    simp [Execution.Guarded, RegistersFresh, new, State.ensureDriver, State.registerMany]
  obtain ⟨_, each, holds⟩ := routes_exactly .little steps run fresh
  exact ⟨steps, actions, each, fun channel => (holds channel).1⟩

/-- The tables hold the entries of the live receivers, and no other. -/
structure TablesExact (state : State) : Prop where
  pending : ∀ seq channel, state.pending seq = some channel → state.Owns seq channel
  listeners : ∀ listener ∈ state.eventListeners,
    ∃ guard ∈ state.streams, (guard.id, guard.channel) = listener
  registered : state.Alive → ∀ seq channel, state.Owns seq channel →
    state.pending seq = some channel
  listening : state.Alive → ∀ guard ∈ state.streams,
    (guard.id, guard.channel) ∈ state.eventListeners

/-- In no run does an entry outlive its receiver, or a receiver lose its entry to
another before the driver fails. -/
theorem tables_stay_exact (order : ByteOrder) (steps : List (Action × State))
    (run : Execution (step? order) new steps) (fresh : Execution.Guarded RegistersFresh new steps) :
    Execution.Always TablesExact new steps := by
  have preserved : ∀ state action next, Registry state →
      RegistersFresh state action → step? order state action = some next → Registry next :=
    fun _ _ _ registry isFresh taken => registry.step isFresh taken
  have related : ∀ state action next, Registry state →
      RegistersFresh state action → step? order state action = some next → True :=
    fun _ _ _ _ _ _ => trivial
  obtain ⟨along, _⟩ := run.eachStep_of_preserved preserved related fresh Registry.new
  refine along.mono fun state registry => ?_
  exact
    { pending := registry.table.base.pendingOwned
      listeners := registry.table.listenerOwned
      registered := fun alive seq channel => (registry.pending_eq_some_iff alive seq channel).mpr
      listening := registry.table.listenerOf }

/-- A batch registers its seqs, another request takes one of them once they are
given up, and both are dropped. -/
theorem tables_stay_exact_reused : ∃ steps : List (Action × State),
      steps.map Prod.fst = [.registerMany [5, 6], .dropRequest ⟨0, [5, 6]⟩, .register 5,
        .subscribeEvents, .dropRequest ⟨1, [5]⟩] ∧
        Execution.Always TablesExact new steps := by
  refine ⟨[(_, _), (_, _), (_, _), (_, _), (_, _)], rfl, tables_stay_exact .little _
    (.cons rfl (.cons rfl (.cons rfl (.cons rfl (.cons rfl (.nil _)))))) ?_⟩
  simp [Execution.Guarded, RegistersFresh, new, State.registerMany, State.dropRequest]

end Nlink.Netlink.Dispatcher
