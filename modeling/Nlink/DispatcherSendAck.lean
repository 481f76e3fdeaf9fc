import Nlink.DispatcherRouting
import Nlink.NetlinkReply

namespace Nlink.Netlink

open Foundation List

/-!
# Sequence numbers and acknowledgements

A socket numbers its requests from a counter of 32 bits that passes over zero.
The numbers form a cycle, and each is the one so many places behind another.
-/

/-- `next_nonzero_seq`: the next seq and the counter behind it.  The counter
wraps at 32 bits, and a zero that it holds is passed over. -/
def nextNonzeroSeq (counter : Nat) : Nat × Nat :=
  if counter = 0 then (1, 2) else (counter, (counter + 1) % 2 ^ 32)

def seqPeriod : Nat := 2 ^ 32 - 1

/-- The seq so many places behind a seq. -/
def seqAt (start steps : Nat) : Nat :=
  (start - 1 + steps) % seqPeriod + 1

/-- The seq that a counter gives next. -/
def headSeq (counter : Nat) : Nat :=
  (nextNonzeroSeq counter).1

theorem headSeq_pos (counter : Nat) : 1 ≤ headSeq counter := by
  rw [headSeq, nextNonzeroSeq]
  split <;> omega

theorem headSeq_le {counter : Nat} (fits : counter < 2 ^ 32) : headSeq counter ≤ seqPeriod := by
  rw [headSeq, nextNonzeroSeq, seqPeriod]
  split <;> omega

theorem seqAt_zero {start : Nat} (positive : 1 ≤ start) (fits : start ≤ seqPeriod) :
    seqAt start 0 = start := by
  rw [seqAt, seqPeriod] at *
  omega

theorem seqAt_succ (start steps : Nat) : seqAt start (steps + 1) = seqAt (seqAt start 1) steps := by
  simp only [seqAt, seqPeriod]
  omega

/-- Taking a sequence number moves the counter on by one place. -/
theorem nextNonzeroSeq_spec {counter : Nat} (fits : counter < 2 ^ 32) :
    (nextNonzeroSeq counter).2 < 2 ^ 32 ∧
      headSeq (nextNonzeroSeq counter).2 = seqAt (headSeq counter) 1 := by
  simp only [headSeq, nextNonzeroSeq, seqAt, seqPeriod]
  split <;> split <;> omega

/-- The seqs that a counter gives, one after the other. -/
def seqsFrom : Nat → Nat → List Nat
  | _, 0 => []
  | counter, count + 1 => headSeq counter :: seqsFrom (nextNonzeroSeq counter).2 count

theorem seqsFrom_eq {counter : Nat} (fits : counter < 2 ^ 32) (count : Nat) :
    seqsFrom counter count = (List.range count).map (seqAt (headSeq counter)) := by
  induction count generalizing counter with
  | zero => rfl
  | succ count ih =>
      obtain ⟨nextFits, isNext⟩ := nextNonzeroSeq_spec fits
      rw [seqsFrom, ih nextFits, range_succ_eq_map, map_cons, map_map, isNext,
        seqAt_zero (headSeq_pos counter) (headSeq_le fits)]
      exact congrArg _ (map_congr_left fun steps _ => (seqAt_succ _ steps).symm)

/-- Zero, which marks notifications, is never given, and requests share a seq
only when a whole cycle lies between them. -/
theorem seqsFrom_distinct_iff {counter : Nat} (fits : counter < 2 ^ 32) (count : Nat) :
    (∀ seq ∈ seqsFrom counter count, 0 < seq ∧ seq < 2 ^ 32) ∧
      ((seqsFrom counter count).Nodup ↔ count ≤ seqPeriod) := by
  rw [seqsFrom_eq fits]
  constructor
  · intro seq member
    obtain ⟨steps, _, rfl⟩ := mem_map.mp member
    simp only [seqAt, seqPeriod]
    omega
  · rw [nodup_map_iff_inj_on nodup_range]
    constructor
    · intro injective
      by_contra tooMany
      have same : seqAt (headSeq counter) 0 = seqAt (headSeq counter) seqPeriod := by
        simp only [seqAt, seqPeriod]
        omega
      have both := injective 0 (by simp; omega) seqPeriod (by simp; omega) same
      cases both
    · intro few first inFirst second inSecond same
      rw [mem_range] at inFirst inSecond
      simp only [seqAt, seqPeriod] at same few
      omega

/-- Around the end of the cycle. -/
theorem seqsFrom_distinct_wraps : seqsFrom 4294967295 3 = [4294967295, 1, 2] ∧
      (seqsFrom 4294967295 3).Nodup :=
  ⟨rfl, (seqsFrom_distinct_iff (by decide) 3).2.mpr (by decide)⟩

/-!
## Waiting for an acknowledgement

`send_ack` sends a request and reads datagrams until a message carries the
request's sequence number.  In mutex mode the datagrams come from the socket, in
dispatcher mode from the request's channel, with a loop for each.  Multicast
notifications arrive in between.
-/

/-- What a call of `send_ack` returns.  In dispatcher mode the driver may stop
before the reply arrives. -/
inductive AckResult where
  | ok
  | error (error : Error)
  | stopped (message : String)

/-- The error for a message that is neither an acknowledgement nor an error. -/
def unexpectedReply (seq : Nat) (header : NlMsgHdr) : Error :=
  .invalidMessage
    ("send_ack: expected ACK or error for seq " ++ toString seq ++
      ", got nlmsg_type " ++ toString header.nlmsgType ++
      " (kernel returned data on an ack-only request)")

/-- One turn of the loop over a datagram's messages: a message that is not
skipped decides the call. -/
def ackOfMessage (order : ByteOrder) (seq : Nat) : Except Error Message → Option AckResult
  | .error _ => none
  | .ok (header, payload) =>
      if header.nlmsgSeq ≠ seq then
        none
      else if header.isError then
        match NlMsgError.fromBytes order payload with
        | .error error => some (.error error)
        | .ok err => if err.isAck then some .ok else some (.error (err.intoError order payload))
      else
        some (.error (unexpectedReply seq header))

/-- The loop over the messages of a datagram. -/
def ackOfDatagram (order : ByteOrder) (seq : Nat) (buf : Datagram) : Option AckResult :=
  (messageIter order buf).findSome? (ackOfMessage order seq)

/-- `send_ack_mutex`, from what the receives return; without a result it still
waits. -/
def sendAckMutex (order : ByteOrder) (seq : Nat) : List (Except Error Datagram) → Option AckResult
  | [] => none
  | .error error :: _ => some (.error error)
  | .ok response :: incoming =>
      match ackOfDatagram order seq response with
      | some result => some result
      | none => sendAckMutex order seq incoming

/-- `send_ack_dispatch`, from what the driver has sent into the channel and,
once the channel is closed, the text of the error that stopped it. -/
def sendAckDispatch (order : ByteOrder) (seq : Nat) (closed : Option String) :
    List Datagram → Option AckResult
  | [] => closed.map .stopped
  | buf :: incoming =>
      match ackOfDatagram order seq buf with
      | some result => some result
      | none => sendAckDispatch order seq closed incoming

/-- The request's outcome as `send_ack` returns it. -/
def ackResult : Option Error → AckResult
  | none => .ok
  | some error => .error error

/-- A datagram that holds no reply to the request: multicast notifications, or
replies to other requests.  Its messages carry one sequence number, which may be
zero or that of any request. -/
structure NoReply (order : ByteOrder) (seq : Nat) (buf : Datagram) : Prop where
  oneSeq : ∃ carried, ∀ message, .ok message ∈ messageIter order buf → message.1.nlmsgSeq = carried
  notError : ∀ message, .ok message ∈ messageIter order buf →
    message.1.nlmsgSeq = seq → message.1.isError = false

/-- A message of the datagram carries the request's sequence number. -/
def Bears (order : ByteOrder) (seq : Nat) (buf : Datagram) : Prop :=
  ∃ message, .ok message ∈ messageIter order buf ∧ message.1.nlmsgSeq = seq

/-- The datagram begins with the reply to the request. -/
def HoldsReply (order : ByteOrder) (seq : Nat) (outcome : Option Error) (buf : Datagram) : Prop :=
  ∃ message behind, messageIter order buf = .ok message :: behind ∧
      message.1.nlmsgSeq = seq ∧ Reply order message outcome

section Loops

variable {order : ByteOrder} {seq : Nat}

variable {outcome : Option Error}

theorem ackOfMessage_reply {message : Message} (own : message.1.nlmsgSeq = seq)
    (reply : Reply order message outcome) :
    ackOfMessage order seq (.ok message) = some (ackResult outcome) := by
  obtain ⟨header, payload⟩ := message
  cases reply with
  | ack err isError parsed acknowledges =>
      simp only [ackOfMessage, if_neg (not_not.mpr own), isError, if_true,
        parsed, acknowledges, ackResult]
  | rejects err isError parsed nonZero =>
      simp only [ackOfMessage, if_neg (not_not.mpr own), isError, if_true,
        parsed, nonZero, ackResult]
      rfl

variable {buf : Datagram}

theorem ackOfDatagram_reply (holds : HoldsReply order seq outcome buf) :
    ackOfDatagram order seq buf = some (ackResult outcome) := by
  obtain ⟨message, behind, messages, own, reply⟩ := holds
  rw [ackOfDatagram, messages, findSome?_cons, ackOfMessage_reply own reply]

theorem ackOfDatagram_skips (foreign : ¬ Bears order seq buf) :
    ackOfDatagram order seq buf = none := by
  refine findSome?_eq_none_iff.mpr fun result member => ?_
  cases result with
  | error error => rfl
  | ok message => exact if_pos fun own => foreign ⟨message, member, own⟩

theorem ackOfDatagram_mistakes (noReply : NoReply order seq buf) (bears : Bears order seq buf) :
    ∃ header, ackOfDatagram order seq buf = some (.error (unexpectedReply seq header)) := by
  obtain ⟨message, member, own⟩ := bears
  cases decided : ackOfDatagram order seq buf with
  | none =>
      have skipped := findSome?_eq_none_iff.mp decided _ member
      have isError := noReply.notError message member own
      rw [ackOfMessage, if_neg (not_not.mpr own), isError] at skipped
      cases skipped
  | some result =>
      obtain ⟨first, firstMember, isResult⟩ := exists_of_findSome?_eq_some decided
      cases first with
      | error error => cases isResult
      | ok first =>
          by_cases firstOwn : first.1.nlmsgSeq = seq
          · have isError := noReply.notError first firstMember firstOwn
            rw [ackOfMessage, if_neg (not_not.mpr firstOwn), isError] at isResult
            cases isResult
            exact ⟨first.1, rfl⟩
          · rw [ackOfMessage, if_pos firstOwn] at isResult
            cases isResult

theorem unexpectedReply_ne {message : Message} (reply : Reply order message outcome)
    (header : NlMsgHdr) : AckResult.error (unexpectedReply seq header) ≠ ackResult outcome := by
  cases reply with
  | ack err isError parsed acknowledges => exact AckResult.noConfusion
  | rejects err isError parsed nonZero =>
      intro same
      cases same

theorem sendAckMutex_ok (incoming : List Datagram) : sendAckMutex order seq (incoming.map .ok) =
      sendAckDispatch order seq none incoming := by
  induction incoming with
  | nil => rfl
  | cons buf incoming ih => rw [map_cons, sendAckMutex, sendAckDispatch, ih]

theorem sendAckDispatch_iff {notifications : List Datagram} {reply : Datagram}
    (noReplies : ∀ buf ∈ notifications, NoReply order seq buf)
    (holds : HoldsReply order seq outcome reply) (closed : Option String) (later : List Datagram) :
    sendAckDispatch order seq closed (notifications ++ reply :: later) = some (ackResult outcome) ↔
      ∀ buf ∈ notifications, ¬ Bears order seq buf := by
  induction notifications with
  | nil =>
      rw [List.nil_append, sendAckDispatch, ackOfDatagram_reply holds]
      exact iff_of_true rfl fun _ member => nomatch member
  | cons buf notifications ih =>
      rw [forall_mem_cons] at noReplies
      rw [forall_mem_cons, cons_append, sendAckDispatch]
      by_cases bears : Bears order seq buf
      · obtain ⟨header, decided⟩ := ackOfDatagram_mistakes noReplies.1 bears
        obtain ⟨message, _, _, _, isReply⟩ := holds
        rw [decided]
        exact iff_of_false (fun same => unexpectedReply_ne isReply header (Option.some.inj same))
          (fun foreign => foreign.1 bears)
      · rw [ackOfDatagram_skips bears]
        exact (ih noReplies.2).trans (and_iff_right bears).symm

end Loops

namespace Dispatcher

/-!
## What a waiting request is sent

While a request waits, its channel is sent the datagrams that begin with a
message of its sequence number, and nothing else.
-/

variable {order : ByteOrder} {state next : State}

/-- The datagrams that the driver sends to the request of a seq. -/
def routedTo (order : ByteOrder) (seq : Nat) (arrived : List Datagram) : List Datagram :=
  arrived.filter fun buf => State.routingSeq order buf == some seq

/-- Channels that do not exist yet hold nothing. -/
def UnusedEmpty (state : State) : Prop :=
  ∀ channel, state.nextChannel ≤ channel → state.queues channel = []

theorem UnusedEmpty.step (unused : UnusedEmpty state) (registry : Registry state) {action : Action}
    (taken : step? order state action = some next) : UnusedEmpty next := by
  obtain ⟨grows, same⟩ := registry.table.queues_of_unused taken
  intro channel isUnused
  rw [same channel (Nat.le_trans grows isUnused)]
  exact unused channel (Nat.le_trans grows isUnused)

variable {seq : Nat}

theorem due_of_request (registry : Registry state) {channel : ChannelId}
    (live : { channel := channel, seqs := [seq] } ∈ state.requests) (nonZero : seq ≠ 0)
    (action : Action) (next : State) :
    due order channel state action = routedTo order seq (arrivals [(action, next)]) := by
  have owns : ∀ other, state.Owns other channel ↔ other = seq := by
    intro other
    constructor
    · rintro ⟨guard, guardLive, isChannel, owned⟩
      cases registry.table.request_eq guardLive live isChannel
      exact mem_singleton.mp owned
    · rintro rfl
      exact ⟨_, live, rfl, mem_singleton.mpr rfl⟩
  cases action with
  | received buf =>
      simp only [due, routedTo, arrivals, filterMap_cons, filterMap_nil, filter_cons, filter_nil]
      cases isSeq : State.routingSeq order buf with
      | none => rfl
      | some first =>
          cases first with
          | zero =>
              have other : (some 0 == some seq) = false :=
                beq_false_of_ne fun same => nonZero (Option.some.inj same).symm
              simp [other]
          | succ first =>
              simp only [owns]
              by_cases same : first + 1 = seq
              · simp [same]
              · simp [same]
  | fanOutEvents =>
      have silent : ¬ state.Listens channel := fun listens =>
        registry.table.request_channel_ne live listens rfl
      simp only [due, if_neg silent]
      split <;> rfl
  | _ => rfl

theorem queues_of_waiting {steps : List (Action × State)} {channel : ChannelId}
    (execution : Execution (step? order) state steps)
    (fresh : Execution.Guarded RegistersFresh state steps) (registry : Registry state)
    (live : Execution.Always (fun state => { channel := channel, seqs := [seq] } ∈ state.requests)
      state steps)
    (nonZero : seq ≠ 0) :
    (Execution.final state steps).queues channel =
      state.queues channel ++ routedTo order seq (arrivals steps) := by
  induction execution with
  | nil state => exact (List.append_nil _).symm
  | @cons state next action rest taken _ ih =>
      have later := ih fresh.2 (registry.step fresh.1 taken) ((Execution.always_cons ..).mp live).2
      have split : arrivals ((action, next) :: rest) =
            arrivals [(action, next)] ++ arrivals rest := by
        rw [arrivals, arrivals, arrivals, ← filterMap_append]
        rfl
      rw [Execution.final, later, registry.appends_due taken channel,
        due_of_request registry live.1 nonZero action next, split, routedTo,
        routedTo, routedTo, filter_append, List.append_assoc]

/-- A request registers its seq, sends, and waits.  While it does, the driver
receives some datagrams, and the channel of the request is sent others. -/
inductive Awaits (order : ByteOrder) (seq : Nat) : List Datagram → List Datagram → Prop
  | run {earlier during : List (Action × State)} {registered : State}
      (before : Execution (step? order) new earlier)
      (beforeFresh : Execution.Guarded RegistersFresh new earlier)
      (registers : step? order (Execution.final new earlier) (.register seq) = some registered)
      (registersFresh : RegistersFresh (Execution.final new earlier) (.register seq))
      (execution : Execution (step? order) registered during)
      (fresh : Execution.Guarded RegistersFresh registered during)
      (waits : ∀ step ∈ during,
        { channel := (Execution.final new earlier).nextChannel
          seqs := [seq] } ∈ step.2.requests) :
      Awaits order seq (arrivals during)
        ((Execution.final registered during).queues (Execution.final new earlier).nextChannel)

theorem Awaits.queue_eq {arrived queue : List Datagram} (awaits : Awaits order seq arrived queue) :
    seq ≠ 0 ∧ queue = routedTo order seq arrived := by
  obtain ⟨before, beforeFresh, registers, registersFresh, execution, fresh, waits⟩ := awaits
  have preserved : ∀ state action next,
      (Registry state ∧ UnusedEmpty state) → RegistersFresh state action →
      step? order state action = some next → Registry next ∧ UnusedEmpty next :=
    fun state action next known isFresh taken =>
      ⟨known.1.step isFresh taken, known.2.step known.1 taken⟩
  have start : Registry new ∧ UnusedEmpty new := ⟨Registry.new, fun _ _ => rfl⟩
  have along :=
    (before.eachStep_of_preserved preserved (fun _ _ _ _ _ _ => trivial) beforeFresh start).1
  obtain ⟨registry, unused⟩ := along.final
  refine ⟨registersFresh.1, ?_⟩
  have live := queues_of_waiting execution fresh
    (registry.step registersFresh registers) ⟨?_, waits⟩ registersFresh.1
  · cases registers
    rw [live]
    exact congrArg (· ++ _) (unused _ (Nat.le_refl _))
  · cases registers
    exact mem_cons_self ..

/-- While a request waits, any datagrams can arrive: each is routed, and a
notification is passed on before the next is received. -/
theorem exists_arrivals (order : ByteOrder) {state : State} {guard : PendingGuard}
    (live : guard ∈ state.requests) (receiving : state.driver = .receiving)
    (buffers : List Datagram) :
    ∃ steps, Execution (step? order) state steps ∧ Execution.Guarded RegistersFresh state steps ∧
        (∀ step ∈ steps, guard ∈ step.2.requests) ∧
        arrivals steps = buffers := by
  induction buffers generalizing state with
  | nil => exact ⟨[], .nil _, trivial, forall_mem_nil _, rfl⟩
  | cons buf buffers ih =>
      have received : step? order state (.received buf) = some (state.routeBuffer order buf) :=
        if_pos receiving
      have routed := routed_routeBuffer order state buf
      generalize state.routeBuffer order buf = reached at received routed
      cases routed with
      | dropped _ =>
          obtain ⟨steps, execution, fresh, waits, arrived⟩ := ih live receiving
          exact ⟨(.received buf, state) :: steps, .cons received execution, ⟨trivial, fresh⟩,
            forall_mem_cons.mpr ⟨live, waits⟩, congrArg (buf :: ·) arrived⟩
      | notified _ =>
          let passed : State :=
            { State.fanOutEvents { state.fanOutAll buf with driver := .fanningOut buf } buf with
              driver := .receiving }
          obtain ⟨steps, execution, fresh, waits, arrived⟩ := @ih passed live rfl
          exact ⟨(.received buf, _) :: (.fanOutEvents, passed) :: steps, .cons received (.cons rfl
            execution), ⟨trivial, trivial, fresh⟩, forall_mem_cons.mpr ⟨live,
            forall_mem_cons.mpr ⟨live, waits⟩⟩, congrArg (buf :: ·) arrived⟩
      | @delivered _ owner _ _ =>
          let sent : State :=
            { state with
              queues := fun channel =>
                if channel = owner then state.queues channel ++ [buf] else state.queues channel }
          obtain ⟨steps, execution, fresh, waits, arrived⟩ := @ih sent live receiving
          exact ⟨(.received buf, sent) :: steps, .cons received execution, ⟨trivial, fresh⟩,
            forall_mem_cons.mpr ⟨live, waits⟩, congrArg (buf :: ·) arrived⟩

theorem exists_awaits (order : ByteOrder) (nonZero : seq ≠ 0) (buffers : List Datagram) :
    ∃ queue, Awaits order seq buffers queue := by
  have live : { channel := 0, seqs := [seq] } ∈ (new.ensureDriver.register seq).requests :=
    mem_cons_self ..
  obtain ⟨during, execution, fresh, waits, rfl⟩ := exists_arrivals order live rfl buffers
  have before : Execution (step? order) new [(.ensureDriver, new.ensureDriver)] :=
    .cons rfl (.nil _)
  exact ⟨_, .run before ⟨trivial, trivial⟩ rfl
    ⟨nonZero, fun _ member => nomatch member⟩ execution fresh waits⟩

end Dispatcher

open Dispatcher

variable {order : ByteOrder} {seq : Nat}

theorem routingSeq_reply {outcome : Option Error} {reply : Datagram}
    (holds : HoldsReply order seq outcome reply) : State.routingSeq order reply = some seq := by
  obtain ⟨message, behind, messages, own, _⟩ := holds
  rw [State.routingSeq, messages]
  exact congrArg some own

theorem routingSeq_of_bears {buf : Datagram} (noReply : NoReply order seq buf)
    (bears : Bears order seq buf) : State.routingSeq order buf = some seq := by
  obtain ⟨carried, same⟩ := noReply.oneSeq
  obtain ⟨message, member, own⟩ := bears
  have isCarried : carried = seq := (same message member).symm.trans own
  exact routingSeq_of_carriesSeq
    ⟨⟨message, member⟩, fun other isOther => (same other isOther).trans isCarried⟩

/-- In either mode the outcome of a request is its reply, whatever arrives
before it, exactly when nothing before the reply carries the request's own
sequence number. -/
theorem sendAck_outcome_iff (order : ByteOrder) {seq : Nat} {outcome : Option Error}
    {notifications : List Datagram} {reply : Datagram}
    (noReplies : ∀ buf ∈ notifications, NoReply order seq buf)
    (holds : HoldsReply order seq outcome reply) (later : List Datagram) :
    (sendAckMutex order seq ((notifications ++ reply :: later).map .ok) = some (ackResult outcome) ↔
      ∀ buf ∈ notifications, ¬ Bears order seq buf) ∧
    ∀ queue closed, Awaits order seq (notifications ++ reply :: later) queue →
        (sendAckDispatch order seq closed queue = some (ackResult outcome) ↔
          ∀ buf ∈ notifications, ¬ Bears order seq buf) := by
  constructor
  · rw [sendAckMutex_ok]
    exact sendAckDispatch_iff noReplies holds none later
  · intro queue closed awaits
    obtain ⟨_, rfl⟩ := awaits.queue_eq
    have routed : routedTo order seq (notifications ++ reply :: later) =
          routedTo order seq notifications ++ reply :: routedTo order seq later := by
      have isReply : (State.routingSeq order reply == some seq) = true :=
        beq_iff_eq.mpr (routingSeq_reply holds)
      simp only [routedTo, filter_append, filter_cons, isReply, if_true]
    have loop :=
      sendAckDispatch_iff
        (fun buf (member : buf ∈ routedTo order seq notifications) =>
          noReplies buf (mem_of_mem_filter member))
        holds closed (routedTo order seq later)
    rw [routed, loop]
    constructor
    · intro foreign buf member bears
      have isRouted := routingSeq_of_bears (noReplies buf member) bears
      exact foreign buf (mem_filter.mpr ⟨member, beq_iff_eq.mpr isRouted⟩) bears
    · intro foreign buf member
      exact foreign buf (mem_of_mem_filter member)

/-- The header of a notification that an address was added, with a seq. -/
def newAddrHeader (seq : Nat) : NlMsgHdr where
  nlmsgLen := 16
  nlmsgType := 20
  nlmsgFlags := 0
  nlmsgSeq := seq
  nlmsgPid := 0

def newAddrNotification (seq : Nat) : Datagram :=
  (newAddrHeader seq).asBytes .little ++ []

theorem messageIter_newAddr {seq : Nat} (fits : seq < 2 ^ 32) :
    messageIter .little (newAddrNotification seq) = [.ok (newAddrHeader seq, [])] := by
  refine messageIter_asBytes (fun behind => ?_) rfl (by decide)
  exact fromBytes_asBytes .little (newAddrHeader seq) behind
    (by simp [newAddrHeader]) (by simp [newAddrHeader])
    (by simp [newAddrHeader]) fits (by simp [newAddrHeader])

theorem noReply_newAddr (seq : Nat) {carried : Nat} (fits : carried < 2 ^ 32) :
    NoReply .little seq (newAddrNotification carried) where
  oneSeq :=
    ⟨carried, fun message member => by
      rw [messageIter_newAddr fits, mem_singleton] at member
      cases member
      rfl⟩
  notError := fun message member _ => by
    rw [messageIter_newAddr fits, mem_singleton] at member
    cases member
    rfl

theorem bears_newAddr_iff (seq : Nat) {carried : Nat} (fits : carried < 2 ^ 32) :
    Bears .little seq (newAddrNotification carried) ↔ carried = seq := by
  rw [Bears, messageIter_newAddr fits]
  constructor
  · rintro ⟨message, member, own⟩
    cases mem_singleton.mp member
    exact own
  · rintro rfl
    exact ⟨_, mem_singleton.mpr rfl, rfl⟩

theorem holdsReply_ack : HoldsReply .little 1 none (replyDatagram .little 0 1) :=
  ⟨_, [], messageIter_replyDatagram .little 0 (by decide), rfl,
    .ack _ { errno := 0, msg := requestHeader 1 } rfl rfl rfl⟩

/-- A notification with sequence number zero is skipped, and the
acknowledgement is returned. -/
theorem sendAck_outcome_iff_zero : sendAckMutex .little 1
          (([newAddrNotification 0] ++ replyDatagram .little 0 1 :: []).map .ok) =
        some .ok ∧
      ∃ queue, Awaits .little 1 ([newAddrNotification 0] ++ replyDatagram .little 0 1 :: []) queue ∧
          sendAckDispatch .little 1 none queue = some .ok := by
  have zeroFits : 0 < 2 ^ 32 := by decide
  have noReplies : ∀ buf ∈ [newAddrNotification 0], NoReply .little 1 buf :=
    forall_mem_singleton.mpr (noReply_newAddr 1 zeroFits)
  have foreign : ∀ buf ∈ [newAddrNotification 0], ¬ Bears .little 1 buf :=
    forall_mem_singleton.mpr fun bears =>
      absurd ((bears_newAddr_iff 1 zeroFits).mp bears) (by decide)
  obtain ⟨mutex, dispatch⟩ := sendAck_outcome_iff .little noReplies holdsReply_ack []
  obtain ⟨queue, awaits⟩ :=
    exists_awaits .little Nat.one_ne_zero
      ([newAddrNotification 0] ++ replyDatagram .little 0 1 :: [])
  exact ⟨mutex.mpr foreign, queue, awaits, (dispatch queue none awaits).mpr foreign⟩

/-- The notification of the change that the request made carries the request's
sequence number, and is reported in place of the acknowledgement. -/
theorem sendAck_mistakes_ownNotification : NoReply .little 1 (newAddrNotification 1) ∧
      HoldsReply .little 1 none (replyDatagram .little 0 1) ∧
      sendAckMutex .little 1 [.ok (newAddrNotification 1), .ok (replyDatagram .little 0 1)] ≠
        some (ackResult none) ∧
      ∃ queue, Awaits .little 1 [newAddrNotification 1, replyDatagram .little 0 1] queue ∧
          sendAckDispatch .little 1 none queue ≠ some (ackResult none) := by
  have oneFits : 1 < 2 ^ 32 := by decide
  have noReply := noReply_newAddr 1 oneFits
  have bears : Bears .little 1 (newAddrNotification 1) := (bears_newAddr_iff 1 oneFits).mpr rfl
  obtain ⟨header, mistaken⟩ := ackOfDatagram_mistakes noReply bears
  obtain ⟨queue, awaits⟩ :=
    exists_awaits .little Nat.one_ne_zero [newAddrNotification 1, replyDatagram .little 0 1]
  have routed : routedTo .little 1 [newAddrNotification 1, replyDatagram .little 0 1] =
        newAddrNotification 1 :: routedTo .little 1 [replyDatagram .little 0 1] :=
    filter_cons_of_pos (beq_iff_eq.mpr (routingSeq_of_bears noReply bears))
  refine ⟨noReply, holdsReply_ack, ?_, queue, awaits, ?_⟩
  · rw [sendAckMutex, mistaken]
    exact fun same => nomatch same
  · rw [awaits.queue_eq.2, routed, sendAckDispatch, mistaken]
    exact fun same => nomatch same

end Nlink.Netlink
