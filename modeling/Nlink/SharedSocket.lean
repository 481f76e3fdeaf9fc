import Nlink.DispatcherRouting

namespace Nlink.Netlink.SharedSocket

open Foundation Dispatcher

/-!
# Two ways to receive from one socket

In dispatcher mode the driver takes the datagrams off the socket and routes
them to the requests that have registered.  `nft_dump` and `send_batch` take the
request lock and receive from the socket themselves; what is not theirs they
skip.  Whoever receives first gets a datagram, whose ever it is.
-/

/-- An nftables operation that has sent its messages: their seqs, and what its
loop has received. -/
structure NftOperation where
  seqs : List Nat
  received : List Datagram
  deriving DecidableEq

/-- The request lock. -/
inductive Lock where
  | free
  /-- A dump of the dispatcher holds it. -/
  | dump
  | nft (operation : NftOperation)
  deriving DecidableEq

/-- A connection in dispatcher mode, with the socket's receive queue. -/
structure State where
  dispatcher : Dispatcher.State
  socket : List Datagram
  lock : Lock

def new : State where
  dispatcher := Dispatcher.new
  socket := []
  lock := .free

/-- The steps of callers, of the driver and of the kernel. -/
inductive Action where
  /-- A step of the dispatcher that takes nothing off the socket. -/
  | dispatcher (action : Dispatcher.Action)
  | lockDump
  | unlockDump
  /-- An nftables operation takes the lock and sends messages with seqs. -/
  | beginNft (seqs : List Nat)
  /-- It has returned, failed or been cancelled. -/
  | endNft
  /-- The kernel sends a datagram. -/
  | arrives (buf : Datagram)
  | driverReceives
  | nftReceives

namespace State

/-- Callers ensure the driver before they register. -/
def stepDispatcher? (order : ByteOrder) (state : State)
    (action : Dispatcher.Action) : Option State :=
  match action with
  | .received _ => none
  | .register _ | .registerMany _ | .subscribeEvents =>
      if state.dispatcher.driver = .notSpawned then
        none
      else
        (Dispatcher.step? order state.dispatcher action).map fun next =>
          { state with dispatcher := next }
  | _ =>
      (Dispatcher.step? order state.dispatcher action).map fun next =>
        { state with dispatcher := next }

end State

/-- One step; actions that cannot happen in a state are refused. -/
def step? (order : ByteOrder) (state : State) : Action → Option State
  | .dispatcher action => state.stepDispatcher? order action
  | .lockDump => if state.lock = .free then some { state with lock := .dump } else none
  | .unlockDump => if state.lock = .dump then some { state with lock := .free } else none
  | .beginNft seqs =>
      if state.lock = .free then
        some { state with lock := .nft { seqs := seqs, received := [] } }
      else
        none
  | .endNft =>
      match state.lock with
      | .nft _ => some { state with lock := .free }
      | _ => none
  | .arrives buf => some { state with socket := state.socket ++ [buf] }
  | .driverReceives =>
      match state.socket with
      | [] => none
      | buf :: rest =>
          (Dispatcher.step? order state.dispatcher (.received buf)).map
            fun next => { state with dispatcher := next, socket := rest }
  | .nftReceives =>
      match state.lock, state.socket with
      | .nft operation, buf :: rest =>
          some
            { state with
              socket := rest
              lock :=
                .nft
                  { operation with received := operation.received ++ [buf] } }
      | _, _ => none

/-- Who can be handed a datagram: the receiver of a channel, or the loop of the
nftables operation in progress. -/
inductive Receiver where
  | channel (id : ChannelId)
  | nft

/-- What a receiver has been handed. -/
def State.inbox (state : State) : Receiver → List Datagram
  | .channel id => state.dispatcher.queues id
  | .nft =>
      match state.lock with
      | .nft operation => operation.received
      | _ => []

/-- An operation in progress awaits replies with a seq. -/
def State.Awaits (state : State) (seq : Nat) : Receiver → Prop
  | .channel id => state.dispatcher.Owns seq id
  | .nft => ∃ operation, state.lock = .nft operation ∧ seq ∈ operation.seqs

/-- The datagram that a step takes off the socket. -/
def taken (state : State) : Action → Option Datagram
  | .driverReceives | .nftReceives => state.socket.head?
  | _ => none

/-- A datagram that is taken off the socket goes to the operation in progress
that awaits it, and to no other receiver. -/
def Delivers (order : ByteOrder) (state : State) (action : Action) (next : State) : Prop :=
  ∀ buf, taken state action = some buf → ∀ seq, CarriesSeq order buf seq → seq ≠ 0 →
      ∀ receiver, state.Awaits seq receiver → next.inbox receiver = state.inbox receiver ++ [buf] ∧
          (∀ other, other ≠ receiver → next.inbox other = state.inbox other) ∧
          next.dispatcher.broadcasts = state.dispatcher.broadcasts

/-- The driver takes no reply to the nftables operation in progress, and the
loop of the operation takes no reply to a registered request. -/
def ReceivesOwn (order : ByteOrder) (state : State) (action : Action) :
    Prop :=
  ∀ buf, taken state action = some buf → ∀ seq, CarriesSeq order buf seq → seq ≠ 0 →
      match action with
      | .driverReceives => ¬ state.Awaits seq .nft
      | .nftReceives => ∀ id, ¬ state.Awaits seq (.channel id)
      | _ => True

/-- Seqs that are registered are not registered already. -/
def Fresh (state : State) : Action → Prop
  | .dispatcher action => RegistersFresh state.dispatcher action
  | _ => True

/-- No nftables operation is in progress once the driver has been spawned. -/
def Apart (state : State) : Prop :=
  ∀ operation, state.lock = .nft operation → state.dispatcher.driver = .notSpawned

/-!
## Who gets the replies

The registry routes every datagram that the driver takes to the request that
owns its seq.  What remains is who takes it: a datagram is delivered exactly
when the loop that receives it is the one that its operation waits on.
-/

variable {order : ByteOrder} {state next : State}

theorem stepDispatcher?_eq_some {action : Dispatcher.Action}
    (stepped : state.stepDispatcher? order action = some next) :
    ∃ dispatcher, Dispatcher.step? order state.dispatcher action = some dispatcher ∧
        next = { state with dispatcher := dispatcher } := by
  have mapped :
      ((Dispatcher.step? order state.dispatcher action).map fun dispatcher =>
        { state with dispatcher := dispatcher }) = some next := by
    rw [State.stepDispatcher?.eq_def] at stepped
    split at stepped
    · cases stepped
    · split at stepped
      · cases stepped
      · exact stepped
    · split at stepped
      · cases stepped
      · exact stepped
    · split at stepped
      · cases stepped
      · exact stepped
    · exact stepped
  obtain ⟨dispatcher, isStep, isNext⟩ := Option.map_eq_some_iff.mp mapped
  exact ⟨dispatcher, isStep, isNext.symm⟩

theorem driverReceives_eq_some (stepped : step? order state .driverReceives = some next) :
    ∃ buf rest dispatcher, state.socket = buf :: rest ∧
        Dispatcher.step? order state.dispatcher (.received buf) = some dispatcher ∧
        next = { state with dispatcher := dispatcher, socket := rest } := by
  rw [step?] at stepped
  split at stepped
  · cases stepped
  · rename_i buf rest queued
    obtain ⟨dispatcher, isStep, isNext⟩ := Option.map_eq_some_iff.mp stepped
    exact ⟨buf, rest, dispatcher, queued, isStep, isNext.symm⟩

theorem nftReceives_eq_some (stepped : step? order state .nftReceives = some next) :
    ∃ operation buf rest, state.lock = .nft operation ∧ state.socket = buf :: rest ∧
        next =
          { state with
            socket := rest
            lock :=
              .nft
                { operation with
                  received := operation.received ++ [buf] } } := by
  rw [step?.eq_def] at stepped
  simp only at stepped
  split at stepped
  · rename_i operation buf rest locked queued
    cases stepped
    exact ⟨operation, buf, rest, locked, queued, rfl⟩
  · cases stepped

variable {action : Action}

/-- A step leaves the dispatcher as it is, is one of the dispatcher's, or has its driver
receive. -/
theorem dispatcher_of_step (stepped : step? order state action = some next) :
    next.dispatcher = state.dispatcher ∨
      (∃ routed, action = .dispatcher routed ∧ state.stepDispatcher? order routed = some next) ∨
        ∃ buf, Dispatcher.step? order state.dispatcher (.received buf) = some next.dispatcher := by
  cases action with
  | dispatcher routed => exact .inr (.inl ⟨routed, rfl, stepped⟩)
  | driverReceives =>
      obtain ⟨buf, rest, dispatcher, _, isStep, rfl⟩ := driverReceives_eq_some stepped
      exact .inr (.inr ⟨buf, isStep⟩)
  | nftReceives =>
      obtain ⟨operation, buf, rest, _, _, rfl⟩ := nftReceives_eq_some stepped
      exact .inl rfl
  | lockDump | unlockDump | beginNft _ =>
      rw [step?, Option.ite_none_right_eq_some] at stepped
      obtain ⟨_, isNext⟩ := stepped
      cases isNext
      exact .inl rfl
  | endNft =>
      rw [step?] at stepped
      split at stepped
      · cases stepped
        exact .inl rfl
      · cases stepped
  | arrives buf =>
      cases stepped
      exact .inl rfl

theorem step_dispatcher (fresh : Fresh state action)
    (stepped : step? order state action = some next) :
    next.dispatcher = state.dispatcher ∨ ∃ routed, RegistersFresh state.dispatcher routed ∧
          Dispatcher.step? order state.dispatcher routed = some next.dispatcher := by
  obtain same | ⟨routed, rfl, sent⟩ | ⟨buf, isStep⟩ := dispatcher_of_step stepped
  · exact .inl same
  · obtain ⟨dispatcher, isStep, rfl⟩ := stepDispatcher?_eq_some sent
    exact .inr ⟨routed, fresh, isStep⟩
  · exact .inr ⟨.received buf, trivial, isStep⟩

theorem registry_step (registry : Registry state.dispatcher) (fresh : Fresh state action)
    (stepped : step? order state action = some next) : Registry next.dispatcher := by
  rcases step_dispatcher fresh stepped with same | ⟨routed, isFresh, isStep⟩
  · rw [same]
    exact registry
  · exact registry.step isFresh isStep

theorem broadcasts_received {dispatcher routed : Dispatcher.State} {buf : Datagram} {seq : Nat}
    (isStep : Dispatcher.step? order dispatcher (.received buf) = some routed)
    (carries : CarriesSeq order buf seq) (nonZero : seq ≠ 0) :
    routed.broadcasts = dispatcher.broadcasts := by
  cases stepped_of_step isStep with
  | received _ _ reached =>
      cases reached with
      | dropped _ | delivered _ _ => rfl
      | notified zero =>
          exact absurd (Option.some.inj ((routingSeq_of_carriesSeq carries).symm.trans zero)) nonZero

theorem driverReceives_delivers_iff (registry : Registry state.dispatcher)
    (stepped : step? order state .driverReceives = some next) :
    Delivers order state .driverReceives next ↔ ReceivesOwn order state .driverReceives := by
  obtain ⟨buf, rest, dispatcher, queued, isStep, rfl⟩ := driverReceives_eq_some stepped
  have routed := (registry.routes isStep).1
  constructor
  · intro delivers other isTaken seq carries nonZero awaits
    obtain ⟨appended, _, _⟩ := delivers other isTaken seq carries nonZero .nft awaits
    -- The driver hands nothing to the loop of the operation.
    exact absurd appended (by simp [State.inbox])
  · intro receives other isTaken seq carries nonZero receiver awaits
    have isHead : other = buf := by
      rw [taken, queued] at isTaken
      exact (Option.some.inj isTaken).symm
    subst isHead
    cases receiver with
    | nft => exact absurd awaits (receives _ isTaken seq carries nonZero)
    | channel id =>
        have toChannel := routed seq carries nonZero
        refine ⟨?_, ?_, ?_⟩
        · have owned : state.dispatcher.Owns seq id := awaits
          rw [State.inbox, toChannel, if_pos owned]
          rfl
        · intro other different
          cases other with
          | nft => rfl
          | channel otherId =>
              have unowned : ¬ state.dispatcher.Owns seq otherId := by
                rintro ⟨guard, live, isChannel, hasSeq⟩
                obtain ⟨owner, ownerLive, isOwner, ownerHas⟩ := awaits
                refine different ?_
                rw [← isChannel, ← isOwner, registry.exclusive.owners guard live owner ownerLive seq
                    hasSeq ownerHas]
              rw [State.inbox, toChannel, if_neg unowned, List.append_nil]
              rfl
        · exact broadcasts_received isStep carries nonZero

theorem nftReceives_delivers_iff (stepped : step? order state .nftReceives = some next) :
    Delivers order state .nftReceives next ↔ ReceivesOwn order state .nftReceives := by
  obtain ⟨operation, buf, rest, locked, queued, rfl⟩ := nftReceives_eq_some stepped
  constructor
  · intro delivers other isTaken seq carries nonZero id awaits
    obtain ⟨appended, _, _⟩ := delivers other isTaken seq carries nonZero (.channel id) awaits
    -- The loop hands nothing to a channel.
    exact absurd appended (by simp [State.inbox])
  · intro receives other isTaken seq carries nonZero receiver awaits
    have isHead : other = buf := by
      rw [taken, queued] at isTaken
      exact (Option.some.inj isTaken).symm
    subst isHead
    cases receiver with
    | channel id => exact absurd awaits (receives _ isTaken seq carries nonZero id)
    | nft =>
        refine ⟨?_, ?_, rfl⟩
        · simp [State.inbox, locked]
        · intro other different
          cases other with
          | nft => exact absurd rfl different
          | channel id => rfl

theorem delivers_of_not_taken (notTaken : taken state action = none) :
    Delivers order state action next := by
  intro buf isTaken
  rw [notTaken] at isTaken
  cases isTaken

theorem step_delivers_iff (registry : Registry state.dispatcher)
    (stepped : step? order state action = some next) :
    Delivers order state action next ↔ ReceivesOwn order state action := by
  cases action with
  | driverReceives => exact driverReceives_delivers_iff registry stepped
  | nftReceives => exact nftReceives_delivers_iff stepped
  | dispatcher _ | lockDump | unlockDump | beginNft _ | endNft | arrives _ =>
      exact iff_of_true (delivers_of_not_taken rfl) fun _ isTaken => nomatch isTaken

/-- Requests are registered only once the driver has been spawned. -/
def Unspawned (dispatcher : Dispatcher.State) : Prop :=
  dispatcher.driver = .notSpawned → dispatcher.requests = []

/-- The registry is empty until the driver has been spawned. -/
theorem unspawned_step {action : Dispatcher.Action} (unspawned : Unspawned state.dispatcher)
    (stepped : state.stepDispatcher? order action = some next) : Unspawned next.dispatcher := by
  obtain ⟨dispatcher, isStep, rfl⟩ := stepDispatcher?_eq_some stepped
  intro notSpawned
  cases stepped_of_step isStep with
  | spawned _ | fanOutEvents _ | receivedFatal _ _ | clearPending _ | clearListeners _ =>
      cases notSpawned
  | register _ | registerMany _ =>
      -- Refused before the driver is spawned.
      have before : state.dispatcher.driver = .notSpawned := notSpawned
      rw [State.stepDispatcher?, if_pos before] at stepped
      cases stepped
  | deregister _ live | dropRequest _ live =>
      rw [unspawned notSpawned] at live
      cases live
  | running | subscribeEvents | subscribeMulticast _ | dropEvents _ _ | dropMulticast _ _
  | receivedEnobufs _ => exact unspawned notSpawned
  | received _ _ _ => cases stepped

theorem spawned_of_received {dispatcher routed : Dispatcher.State} {buf : Datagram}
    (isStep : Dispatcher.step? order dispatcher (.received buf) = some routed) :
    dispatcher.driver = .receiving ∧ routed.driver ≠ .notSpawned := by
  cases stepped_of_step isStep with
  | received _ receiving reached =>
      refine ⟨receiving, ?_⟩
      cases reached with
      | notified _ => exact nofun
      | dropped _ | delivered _ _ => exact fun notSpawned => nomatch receiving.symm.trans notSpawned

theorem unspawned_preserved (unspawned : Unspawned state.dispatcher)
    (stepped : step? order state action = some next) : Unspawned next.dispatcher := by
  obtain same | ⟨routed, rfl, isStep⟩ | ⟨buf, isStep⟩ := dispatcher_of_step stepped
  · rwa [same]
  · exact unspawned_step unspawned isStep
  · exact fun notSpawned => absurd notSpawned (spawned_of_received isStep).2

theorem receivesOwn_of_apart (apart : Apart state) (unspawned : Unspawned state.dispatcher)
    (stepped : step? order state action = some next) : ReceivesOwn order state action := by
  intro buf isTaken seq carries nonZero
  cases action with
  | driverReceives =>
      obtain ⟨_, _, dispatcher, _, isStep, _⟩ := driverReceives_eq_some stepped
      rintro ⟨operation, locked, _⟩
      have receiving := (spawned_of_received isStep).1
      rw [apart operation locked] at receiving
      cases receiving
  | nftReceives =>
      obtain ⟨operation, _, _, locked, _, _⟩ := nftReceives_eq_some stepped
      rintro id ⟨guard, live, _⟩
      rw [unspawned (apart operation locked)] at live
      cases live
  | dispatcher _ | lockDump | unlockDump | beginNft _ | endNft | arrives _ => trivial

theorem guarded_of_apart (steps : List (Action × State)) (run : Execution (step? order) new steps)
    (apart : Execution.Always Apart new steps) :
    Execution.Guarded (ReceivesOwn order) new steps := by
  have unspawned : Execution.Always (fun state => Unspawned state.dispatcher) new steps :=
    run.always_of_preserved (fun _ _ _ holds stepped => unspawned_preserved holds stepped)
      fun _ => rfl
  have both : Execution.Always (fun state => Apart state ∧ Unspawned state.dispatcher) new steps :=
    ⟨⟨apart.1, unspawned.1⟩, fun step member => ⟨apart.2 step member, unspawned.2 step member⟩⟩
  exact both.guarded run fun _ _ _ holds stepped => receivesOwn_of_apart holds.1 holds.2 stepped

/-- In every run in which seqs are registered fresh, every datagram that is
taken off the socket goes to the operation in progress that awaits it and to no
other receiver, if and only if at no step the driver takes a reply to the
nftables operation in progress, or its loop a reply to a registered request;
and this is so if no nftables operation is in progress once the driver has been
spawned. -/
theorem delivers_iff (order : ByteOrder) (steps : List (Action × State))
    (run : Execution (step? order) new steps) (fresh : Execution.Guarded Fresh new steps) :
    (Execution.EachStep (Delivers order) new steps ↔
        Execution.Guarded (ReceivesOwn order) new steps) ∧
      (Execution.Always Apart new steps → Execution.EachStep (Delivers order) new steps) := by
  have preserved : ∀ state action next, Registry state.dispatcher → Fresh state action →
          step? order state action = some next → Registry next.dispatcher :=
    fun _ _ _ registry isFresh stepped => registry_step registry isFresh stepped
  have step : ∀ state action next,
        Registry state.dispatcher → step? order state action = some next →
          (Delivers order state action next ↔ ReceivesOwn order state action) :=
    fun _ _ _ registry stepped => step_delivers_iff registry stepped
  have exactly := Execution.eachStep_iff_guarded preserved step run fresh Registry.new
  exact ⟨exactly, fun apart => exactly.mpr (guarded_of_apart steps run apart)⟩

/-- An acknowledgement of the message with a seq below 256. -/
def replyTo (seq : UInt8) : Datagram :=
  [16, 0, 0, 0, 2, 0, 0, 0, seq, 0, 0, 0, 1, 0, 0, 0]

theorem carriesSeq_replyTo_one : CarriesSeq .little (replyTo 1) 1 := by
  have parsed : messageIter .little (replyTo 1) =
        [.ok ({ nlmsgLen := 16, nlmsgType := 2, nlmsgFlags := 0,
                nlmsgSeq := 1, nlmsgPid := 1 }, [])] :=
    rfl
  refine ⟨⟨_, parsed ▸ List.mem_singleton.mpr rfl⟩, ?_⟩
  intro message member
  rw [parsed, List.mem_singleton] at member
  cases member
  rfl

/-- An nftables operation before the driver is spawned, and a request after. -/
def oneAfterTheOther : List Action :=
  [.beginNft [1], .arrives (replyTo 1), .nftReceives, .endNft,
    .dispatcher .ensureDriver, .dispatcher (.register 2),
    .arrives (replyTo 2), .driverReceives]

/-- Each gets its reply. -/
theorem delivers_oneAfterTheOther : ∃ steps, steps.map Prod.fst = oneAfterTheOther ∧
        Execution.EachStep (Delivers .little) new steps := by
  obtain ⟨steps, actions, run, fresh, apart⟩ : ∃ steps, steps.map Prod.fst = oneAfterTheOther ∧
          Execution (step? .little) new steps ∧
          Execution.Guarded Fresh new steps ∧
          Execution.Always Apart new steps := by
    refine ⟨[(_, _), (_, _), (_, _), (_, _), (_, _), (_, _), (_, _), (_, _)], rfl,
      .cons rfl (.cons rfl (.cons rfl (.cons rfl (.cons rfl (.cons rfl
        (.cons rfl (.cons rfl (.nil _)))))))), ?_, ?_⟩
    · simp [Execution.Guarded, Fresh, RegistersFresh, new, Dispatcher.new, State.ensureDriver]
    · simp [Execution.Always, Apart, new, Dispatcher.new]
  exact ⟨steps, actions, (delivers_iff .little steps run fresh).2 apart⟩

/-- A subscription spawns the driver, which then takes the reply to an nftables
operation and drops it: no request has registered the seq. -/
theorem driver_takes_nft_reply : ∃ steps, steps.map Prod.fst =
          [.dispatcher .ensureDriver, .dispatcher .subscribeEvents,
            .beginNft [1], .arrives (replyTo 1), .driverReceives] ∧
        Execution (step? .little) new steps ∧
        Execution.Guarded Fresh new steps ∧
        ¬ Execution.EachStep (Delivers .little) new steps ∧
        (Execution.final new steps).inbox .nft = [] ∧
        (Execution.final new steps).socket = [] := by
  refine ⟨[(_, _), (_, _), (_, _), (_, _), (_, _)], rfl, .cons rfl (.cons rfl (.cons rfl (.cons rfl
    (.cons rfl (.nil _))))), ?_, ?_, rfl, rfl⟩
  · simp [Execution.Guarded, Fresh, RegistersFresh]
  · rintro ⟨_, _, _, _, delivered, _⟩
    obtain ⟨received, _⟩ :=
      delivered (replyTo 1) rfl 1 carriesSeq_replyTo_one (by decide) .nft
        ⟨_, rfl, List.mem_singleton.mpr rfl⟩
    cases received

end Nlink.Netlink.SharedSocket
