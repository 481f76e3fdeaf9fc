import Nlink.BridgeVlan
import Nlink.GenericConnection
import Nlink.NetlinkDumpAgreement

namespace Nlink.Generic

open Foundation Netlink List

/-!
# The typed dump stream

The typed stream has a poll loop of its own, copied from that of the byte-level
stream.  It is that stream with a parser that cuts off the generic header.  The
loop of `dump_command` also fails on the interrupted flag, which the stream does
not read.
-/

/-- A typed streaming dump. -/
structure GenlTypedDumpStream (τ : Type) where
  expectedSeq : Nat
  pending : List (Except Netlink.Error τ)
  done : Bool
  errored : Bool

/-- A payload that has no room for the generic header. -/
def frameTooShort : Netlink.Error :=
  .invalidMessage "GENL dump frame too short for header"

namespace GenlTypedDumpStream

/-- `GenlTypedDumpStream::new`, without the driver's channel. -/
def new (τ : Type) (seq : Nat) : GenlTypedDumpStream τ where
  expectedSeq := seq
  pending := []
  done := false
  errored := false

def pushBack (stream : GenlTypedDumpStream τ) (item : Except Netlink.Error τ) :
    GenlTypedDumpStream τ :=
  { stream with pending := stream.pending ++ [item] }

/-- Append an error and end the stream. -/
def fuse (stream : GenlTypedDumpStream τ) (error : Netlink.Error) : GenlTypedDumpStream τ :=
  { stream.pushBack (.error error) with errored := true }

def ended (stream : GenlTypedDumpStream τ) : Bool :=
  stream.done || stream.errored

variable (fromBytes : List UInt8 → Except Netlink.Error τ) (order : ByteOrder)

/-- The loop of `drain_into_pending` over the messages of a datagram. -/
def drainMessages : GenlTypedDumpStream τ → List (Except Netlink.Error Message) →
      GenlTypedDumpStream τ
  | stream, [] => stream
  | stream, .error error :: _ => stream.fuse error
  | stream, .ok (header, payload) :: rest =>
      if header.nlmsgSeq ≠ stream.expectedSeq then
        drainMessages stream rest
      else if header.isError then
        match NlMsgError.fromBytes order payload with
        | .ok err =>
            if err.isAck then
              drainMessages stream rest
            else
              stream.fuse (err.intoError order payload)
        | .error error => stream.fuse error
      else if header.isDone then
        { stream with done := true }
      else if payload.length < GENL_HDRLEN then
        drainMessages (stream.pushBack (.error frameTooShort)) rest
      else
        drainMessages (stream.pushBack (fromBytes (payload.drop GENL_HDRLEN))) rest

/-- `drain_into_pending`. -/
def drainIntoPending (stream : GenlTypedDumpStream τ) (data : Datagram) : GenlTypedDumpStream τ :=
  stream.drainMessages fromBytes order (messageIter order data)

/-- The loop of `poll_next` over the datagrams that have arrived. -/
def pollFrames : GenlTypedDumpStream τ → List Datagram →
      Option (Option (Except Netlink.Error τ)) × GenlTypedDumpStream τ × List Datagram
  | stream, [] => (none, stream, [])
  | stream, data :: incoming =>
      let stream := stream.drainIntoPending fromBytes order data
      match stream.pending with
      | item :: rest => (some (some item), { stream with pending := rest }, incoming)
      | [] =>
          if stream.done || stream.errored then
            (some none, stream, incoming)
          else
            pollFrames stream incoming

/-- `poll_next`: an item, the end of the stream, or nothing yet. -/
def pollNext (stream : GenlTypedDumpStream τ) (incoming : List Datagram) :
    Option (Option (Except Netlink.Error τ)) × GenlTypedDumpStream τ × List Datagram :=
  match stream.pending with
  | item :: rest => (some (some item), { stream with pending := rest }, incoming)
  | [] =>
      if stream.done || stream.errored then
        (some none, stream, incoming)
      else
        stream.pollFrames fromBytes order incoming

/-- The items that the first polls yield, up to the end of the stream or of the
datagrams. -/
def polls : Nat → GenlTypedDumpStream τ → List Datagram → List (Except Netlink.Error τ)
  | 0, _, _ => []
  | count + 1, stream, incoming =>
      match stream.pollNext fromBytes order incoming with
      | (some (some item), stream, incoming) => item :: polls count stream incoming
      | _ => []

def parsePayload (payload : List UInt8) : Except Netlink.Error τ :=
  if payload.length < GENL_HDRLEN then
    .error frameTooShort
  else
    fromBytes (payload.drop GENL_HDRLEN)

/-- The parser of a byte-level stream that does the same. -/
def parser : FromNetlink τ where
  fromBytes := parsePayload fromBytes
  setMsgType := fun _ item => item

theorem parse_reader (message : Message) :
    (parser fromBytes).parse message = parsePayload fromBytes message.2 := by
  rw [FromNetlink.parse, parser]
  dsimp only
  cases parsePayload fromBytes message.2 <;> rfl

/-- The typed stream as a byte-level one. -/
def untyped (stream : GenlTypedDumpStream τ) : DumpStream τ where
  expectedSeq := stream.expectedSeq
  pending := stream.pending
  done := stream.done
  errored := stream.errored
  skipMalformed := false

variable (stream : GenlTypedDumpStream τ)

/-- One datagram does the same to both. -/
theorem untyped_drainMessages
    (items : List (Except Netlink.Error Message)) :
    (stream.drainMessages fromBytes order items).untyped =
      stream.untyped.drainMessages (parser fromBytes) order items := by
  induction items generalizing stream with
  | nil => rfl
  | cons item rest ih =>
      cases item with
      | error error => rfl
      | ok message =>
          obtain ⟨header, payload⟩ := message
          have sameSeq : stream.untyped.expectedSeq = stream.expectedSeq := rfl
          rw [drainMessages, DumpStream.drainMessages, sameSeq]
          by_cases foreign : header.nlmsgSeq ≠ stream.expectedSeq
          · rw [if_pos foreign, if_pos foreign]
            exact ih stream
          · rw [if_neg foreign, if_neg foreign]
            cases header.isError with
            | true =>
                rw [if_pos rfl, if_pos rfl]
                cases NlMsgError.fromBytes order payload with
                | error error => rfl
                | ok err =>
                    dsimp only
                    cases err.isAck with
                    | true => exact ih stream
                    | false => rfl
            | false =>
                cases header.isDone with
                | true => rfl
                | false =>
                    have parsed := parse_reader fromBytes (header, payload)
                    rw [parsePayload] at parsed
                    rw [if_neg Bool.false_ne_true, if_neg Bool.false_ne_true, if_neg
                      Bool.false_ne_true, if_neg Bool.false_ne_true, parsed]
                    dsimp only
                    by_cases short : payload.length < GENL_HDRLEN
                    · rw [if_pos short, if_pos short]
                      exact ih _
                    · rw [if_neg short, if_neg short]
                      have later := ih (stream.pushBack (fromBytes (payload.drop GENL_HDRLEN)))
                      rw [later]
                      cases fromBytes (payload.drop GENL_HDRLEN) <;> rfl

/-- An answer of a poll, with the stream as a byte-level one. -/
def untypedAnswer
    (answer : Option (Option (Except Netlink.Error τ)) × GenlTypedDumpStream τ × List Datagram) :
    Option (Option (Except Netlink.Error τ)) × DumpStream τ × List Datagram :=
  (answer.1, answer.2.1.untyped, answer.2.2)

theorem untyped_pollFrames (incoming : List Datagram) :
    untypedAnswer (stream.pollFrames fromBytes order incoming) =
      stream.untyped.pollFrames (parser fromBytes) order incoming := by
  induction incoming generalizing stream with
  | nil => rfl
  | cons data incoming ih =>
      rw [pollFrames, DumpStream.pollFrames, DumpStream.drainIntoPending,
        ← untyped_drainMessages, ← drainIntoPending]
      generalize stream.drainIntoPending fromBytes order data = next
      obtain ⟨expectedSeq, pending, done, errored⟩ := next
      cases pending with
      | cons item rest => rfl
      | nil =>
          cases done with
          | true => rfl
          | false =>
              cases errored with
              | true => rfl
              | false => exact ih _

theorem untyped_pollNext (incoming : List Datagram) :
    untypedAnswer (stream.pollNext fromBytes order incoming) =
      stream.untyped.pollNext (parser fromBytes) order incoming := by
  have frames := untyped_pollFrames fromBytes order stream incoming
  obtain ⟨expectedSeq, pending, done, errored⟩ := stream
  cases pending with
  | cons item rest => rfl
  | nil =>
      cases done with
      | true => rfl
      | false =>
          cases errored with
          | true => rfl
          | false => exact frames

theorem polls_eq_untyped (count : Nat) (stream : GenlTypedDumpStream τ) (incoming : List Datagram) :
    stream.polls fromBytes order count incoming =
      (stream.untyped.polls (parser fromBytes) order count incoming).1 := by
  induction count generalizing stream incoming with
  | zero => rfl
  | succ count ih =>
      have same := untyped_pollNext fromBytes order stream incoming
      rw [polls, DumpStream.polls, ← same]
      obtain ⟨_ | _ | item, next, later⟩ := stream.pollNext fromBytes order incoming
      · rfl
      · rfl
      · dsimp only [untypedAnswer]
        rw [ih next later]

end GenlTypedDumpStream

section Command

variable (order : ByteOrder)

/-- The payloads that `dump_command` collects of messages. -/
def payloadsOf (messages : List Message) : List (List UInt8) :=
  (messages.filter fun message => !isAck order message).map Prod.snd

def payloadProgress : Progress (List Message) → Progress (List (List UInt8))
  | .running messages => .running (payloadsOf order messages)
  | .finished messages => .finished (payloadsOf order messages)
  | .failed error => .failed error

variable {message : Message}

theorem payloadsOf_ack (isReading : reading order message = .ack) (messages : List Message) :
    payloadsOf order (messages ++ [message]) = payloadsOf order messages := by
  simp [payloadsOf, isAck, isReading]

theorem payloadsOf_data (isReading : reading order message = .data) (messages : List Message) :
    payloadsOf order (messages ++ [message]) = payloadsOf order messages ++ [message.2] := by
  simp [payloadsOf, isAck, isReading]

variable {seq : Nat}

theorem dumpMessages_cons (forRequest : message.1.nlmsgSeq = seq) (responses : List (List UInt8))
    (rest : List (Except Netlink.Error Message)) :
    dumpMessages order seq responses (.ok message :: rest) =
      if message.1.isDumpInterrupted then
        .failed .dumpInterrupted
      else
        match reading order message with
        | .failure error => .failed error
        | .ack => dumpMessages order seq responses rest
        | .done => .finished responses
        | .data =>
            dumpMessages order seq (responses ++ [message.2]) rest := by
  obtain ⟨header, payload⟩ := message
  have checked := checkError_eq_reading order (header, payload)
  dsimp only at checked forRequest
  rw [dumpMessages, if_neg (not_not.mpr forRequest), checked]
  congr 1
  rw [reading]
  cases header.isError with
  | true =>
      dsimp only
      rw [if_pos rfl, if_pos rfl]
      cases NlMsgError.fromBytes order payload with
      | error error => rfl
      | ok err =>
          dsimp only
          cases err.isAck <;> rfl
  | false => cases header.isDone <;> rfl

theorem dumpMessages_payloads {items : List (Except Netlink.Error Message)}
    (wellFormed : ∀ item ∈ items, item.isOk = true) (messages : List Message) :
    dumpMessages order seq (payloadsOf order messages) items =
      payloadProgress order (eagerOver order messages (okFor seq items)) := by
  induction items generalizing messages with
  | nil => rfl
  | cons item rest ih =>
      obtain ⟨isOk, restWellFormed⟩ := forall_mem_cons.mp wellFormed
      cases item with
      | error error => cases isOk
      | ok message =>
          rw [okFor]
          by_cases forRequest : message.1.nlmsgSeq = seq
          · rw [if_pos forRequest, dumpMessages_cons order forRequest, eagerOver]
            cases message.1.isDumpInterrupted with
            | true => rfl
            | false =>
                rw [if_neg Bool.false_ne_true, if_neg Bool.false_ne_true]
                have later := ih restWellFormed (messages ++ [message])
                cases isReading : reading order message with
                | failure error => rfl
                | done => rfl
                | ack =>
                    rw [payloadsOf_ack order isReading] at later
                    exact later
                | data =>
                    rw [payloadsOf_data order isReading] at later
                    exact later
          · obtain ⟨header, payload⟩ := message
            rw [if_neg forRequest, dumpMessages, if_pos forRequest]
            exact ih restWellFormed messages

theorem dumpDatagrams_payloads {incoming : List Datagram}
    (wellFormed : ∀ data ∈ incoming, WellFormed order data) (messages : List Message) :
    dumpDatagrams order seq (payloadsOf order messages) incoming = payloadProgress order
        (eagerOver order messages (messagesFor order seq incoming)) := by
  induction incoming generalizing messages with
  | nil => rfl
  | cons data incoming ih =>
      obtain ⟨dataFormed, laterFormed⟩ := forall_mem_cons.mp wellFormed
      rw [dumpDatagrams, dumpMessages_payloads order dataFormed, messagesFor,
        flatMap_cons, eagerOver_append]
      cases eagerOver order messages (okFor seq (messageIter order data)) with
      | running messages => exact ih laterFormed messages
      | finished messages => rfl
      | failed error => rfl

end Command

section Agreement

variable {fromBytes : List UInt8 → Except Netlink.Error τ} (order : ByteOrder)

/-- The typed stream yields an error exactly when `dump_command` fails, and
otherwise the parses of what `dump_command` collects. -/
def GenlDumpsAgree (fromBytes : List UInt8 → Except Netlink.Error τ)
    (items : List (Except Netlink.Error τ))
    (eager : Progress (List (List UInt8))) : Prop :=
  ((∃ error, .error error ∈ items) ↔ ∃ error, eager = .failed error) ∧ ∀ responses,
      eager = .running responses ∨ eager = .finished responses →
        items = responses.map fun payload => fromBytes (payload.drop GENL_HDRLEN)

/-- The data of a dump has room for the generic header, and is parsed. -/
def Parses (fromBytes : List UInt8 → Except Netlink.Error τ) (messages : List Message) : Prop :=
  ∀ message ∈ messages, reading order message = .data → GENL_HDRLEN ≤ message.2.length ∧
      ∃ item, fromBytes (message.2.drop GENL_HDRLEN) = .ok item

variable {messages : List Message}

theorem streamOver_fails {fromNetlink : FromNetlink τ} (fails : EndsInFailure order messages)
    (stream : DumpStream τ) :
    ∃ error, .error error ∈ (streamOver fromNetlink order stream messages).pending := by
  induction messages generalizing stream with
  | nil =>
      obtain ⟨_, _, none, _⟩ := fails
      cases none
  | cons message rest ih =>
      rw [EndsInFailure, endOf, find?_cons] at fails
      rw [streamOver]
      cases isReading : reading order message with
      | failure error => exact ⟨error, mem_append_right _ mem_cons_self⟩
      | ack =>
          rw [isReading] at fails
          exact ih fails stream
      | done =>
          rw [isReading] at fails
          obtain ⟨_, error, same, failure⟩ := fails
          cases same
          rw [isReading] at failure
          cases failure
      | data =>
          rw [isReading] at fails
          exact ih fails _

theorem reading_of_mem {message : Message}
    (member : message ∈ (beforeEnd order messages).filter fun message => !isAck order message) :
    reading order message = .data := by
  obtain ⟨before, notAck⟩ := mem_filter.mp member
  have notTerminal := mem_takeWhile_imp before
  cases isReading : reading order message with
  | failure error | done => simp [isReading, Reading.isTerminal] at notTerminal
  | ack => simp [isAck, isReading] at notAck
  | data => rfl

theorem parse_of_parses (parses : Parses order fromBytes messages) {message : Message}
    (member : message ∈ (beforeEnd order messages).filter fun message => !isAck order message) :
    (GenlTypedDumpStream.parser fromBytes).parse message = fromBytes (message.2.drop GENL_HDRLEN) ∧
      ∃ item, fromBytes (message.2.drop GENL_HDRLEN) = .ok item := by
  have inMessages : message ∈ messages :=
    (takeWhile_sublist _).subset (mem_filter.mp member).1
  obtain ⟨long, parsed⟩ := parses message inMessages (reading_of_mem order member)
  refine ⟨?_, parsed⟩
  rw [GenlTypedDumpStream.parse_reader, GenlTypedDumpStream.parsePayload,
    if_neg (Nat.not_lt.mpr long)]

theorem payloadProgress_failed (progress : Progress (List Message)) :
    (∃ error, payloadProgress order progress = .failed error) ↔
      ∃ error, progress = .failed error := by
  cases progress <;> simp [payloadProgress]

theorem payloadProgress_collected {progress : Progress (List Message)}
    (collected : progress.collected = some messages) {responses : List (List UInt8)}
    (holds : payloadProgress order progress = .running responses ∨
      payloadProgress order progress = .finished responses) :
    responses = payloadsOf order messages := by
  cases progress with
  | running inProgress | finished atEnd =>
      cases collected
      obtain same | same := holds <;> cases same
      rfl
  | failed error => cases collected

theorem streamOver_agrees_iff (parses : Parses order fromBytes messages) (seq : Nat) :
    GenlDumpsAgree fromBytes
        (streamOver (GenlTypedDumpStream.parser fromBytes) order
          (DumpStream.new τ seq) messages).pending
        (payloadProgress order (eagerOver order [] messages)) ↔
      EndsInFailure order messages ∨ Uninterrupted order messages := by
  have failed :
      (∃ error, payloadProgress order (eagerOver order [] messages) = .failed error) ↔
        EndsInFailure order messages ∨ ¬ Uninterrupted order messages :=
    (payloadProgress_failed order _).trans (eagerOver_failed order [] messages)
  by_cases fails : EndsInFailure order messages
  · refine iff_of_true ⟨iff_of_true (streamOver_fails order fails _)
      (failed.mpr (Or.inl fails)), ?_⟩ (Or.inl fails)
    obtain ⟨error, isFailed⟩ := failed.mpr (Or.inl fails)
    rw [isFailed]
    rintro responses (same | same) <;> cases same
  · have items : (streamOver (GenlTypedDumpStream.parser fromBytes) order
          (DumpStream.new τ seq) messages).pending =
        (payloadsOf order (beforeEnd order messages)).map fun payload =>
          fromBytes (payload.drop GENL_HDRLEN) := by
      rw [streamOver_pending _ _ _ _ fails, payloadsOf, map_map]
      exact map_congr_left fun message member => (parse_of_parses order parses member).1
    have noError : ¬ ∃ error, .error error ∈
        (streamOver (GenlTypedDumpStream.parser fromBytes) order
          (DumpStream.new τ seq) messages).pending := by
      rintro ⟨error, member⟩
      rw [items, payloadsOf, map_map] at member
      obtain ⟨message, inDump, isError⟩ := mem_map.mp member
      obtain ⟨_, item, parsed⟩ := parse_of_parses order parses inDump
      rw [Function.comp_apply, parsed] at isError
      cases isError
    by_cases uninterrupted : Uninterrupted order messages
    · have collected := eagerOver_collected order [] messages fails uninterrupted
      have notFailed := fun isFailed => (failed.mp isFailed).elim fails (not_not.mpr uninterrupted)
      refine iff_of_true ⟨iff_of_false noError notFailed, ?_⟩ (Or.inr uninterrupted)
      intro responses holds
      rw [payloadProgress_collected order collected holds]
      exact items
    · refine iff_of_false (fun agrees => ?_) (fun either => either.elim fails uninterrupted)
      exact noError (agrees.1.mpr (failed.mpr (Or.inr uninterrupted)))

theorem genlDumps_agree_iff {seq : Nat} {incoming : List Datagram}
    (wellFormed : ∀ data ∈ incoming, WellFormed order data)
    (parses : Parses order fromBytes (messagesFor order seq incoming)) {count : Nat}
    (enough : (messagesFor order seq incoming).length < count) :
    GenlDumpsAgree fromBytes ((GenlTypedDumpStream.new τ seq).polls fromBytes order count incoming)
        (dumpDatagrams order seq [] incoming) ↔
      EndsInFailure order (messagesFor order seq incoming) ∨
        Uninterrupted order (messagesFor order seq incoming) := by
  have bounded := streamOver_length_le (GenlTypedDumpStream.parser fromBytes)
    order (DumpStream.new τ seq) (messagesFor order seq incoming)
  have polled := polls_eq (GenlTypedDumpStream.parser fromBytes) order count
    (DumpStream.new τ seq) incoming wellFormed rfl
    (Nat.lt_of_le_of_lt bounded (by simpa [DumpStream.new] using enough))
  have items : (GenlTypedDumpStream.new τ seq).polls fromBytes order count incoming =
        (streamOver (GenlTypedDumpStream.parser fromBytes) order
          (DumpStream.new τ seq) (messagesFor order seq incoming)).pending := by
    rw [GenlTypedDumpStream.polls_eq_untyped]
    exact congrArg Prod.fst polled
  have eager : dumpDatagrams order seq [] incoming = payloadProgress order
        (eagerOver order [] (messagesFor order seq incoming)) :=
    dumpDatagrams_payloads order wellFormed []
  rw [items, eager]
  generalize messagesFor order seq incoming = messages at parses ⊢
  exact streamOver_agrees_iff order parses seq

end Agreement

end Nlink.Generic

namespace Nlink.Generic.SharedDump

open Foundation Netlink List

/-!
## The typed stream beside a request

In mutex mode a request holds the request lock while it receives.  The typed
stream takes no lock, unlike the byte-level one, so that its polls and the
receives of a request take datagrams off the socket in any order.
-/

/-- The requests that take the lock. -/
inductive RequestKind where
  | sendRequest
  | sendAck
  | sendDump

/-- A request that holds the lock: its seq, and what its loop has received. -/
structure Request where
  kind : RequestKind
  seq : Nat
  received : List Datagram

/-- The loop of the request goes on after what it has received. -/
def Request.waits (order : ByteOrder) (request : Request) : Bool :=
  match request.kind with
  | .sendRequest => (BridgeVlan.sendRequestMutex order request.seq request.received).isNone
  | .sendAck => (sendAckMutex order request.seq (request.received.map .ok)).isNone
  | .sendDump =>
      match sendDumpMutex order request.seq request.received with
      | .running _ => true
      | _ => false

/-- A stream that has sent its request, and what it has received. -/
structure OpenStream (τ : Type) where
  stream : GenlTypedDumpStream τ
  received : List Datagram

/-- A connection's socket and those who receive from it. -/
structure State (τ : Type) where
  socket : List Datagram
  stream : Option (OpenStream τ)
  request : Option Request

def new (τ : Type) : State τ where
  socket := []
  stream := none
  request := none

/-- The steps of the stream, of a request and of the kernel. -/
inductive Action where
  /-- `dump_typed_stream` sends its request. -/
  | openStream (seq : Nat)
  | dropStream
  /-- A poll yields an item that is queued in the stream. -/
  | pollItem
  /-- A poll receives a datagram. -/
  | pollReceives
  /-- A request takes the lock and is sent. -/
  | beginRequest (kind : RequestKind) (seq : Nat)
  | requestReceives
  /-- It has returned, failed or been cancelled. -/
  | endRequest
  | arrives (data : Datagram)

section Steps

variable (fromBytes : List UInt8 → Except Netlink.Error τ) (order : ByteOrder)

/-- One step; actions that cannot happen in a state are refused. -/
def step? (state : State τ) : Action → Option (State τ)
  | .openStream seq =>
      match state.stream with
      | none =>
          some
            { state with stream := some { stream := .new τ seq, received := [] } }
      | some _ => none
  | .dropStream => some { state with stream := none }
  | .pollItem =>
      match state.stream with
      | none => none
      | some opened =>
          match opened.stream.pending with
          | [] => none
          | _ :: rest =>
              some
                { state with
                  stream :=
                    some
                      { opened with stream := { opened.stream with pending := rest } } }
  | .pollReceives =>
      match state.stream, state.socket with
      | some opened, data :: rest =>
          if opened.stream.pending = [] ∧ opened.stream.ended = false then
            some
              { state with
                socket := rest
                stream :=
                  some
                    { stream := opened.stream.drainIntoPending fromBytes order data
                      received := opened.received ++ [data] } }
          else
            none
      | _, _ => none
  | .beginRequest kind seq =>
      match state.request with
      | none =>
          some
            { state with request := some { kind := kind, seq := seq, received := [] } }
      | some _ => none
  | .requestReceives =>
      match state.request, state.socket with
      | some request, data :: rest =>
          if request.waits order then
            some
              { state with
                socket := rest
                request := some { request with received := request.received ++ [data] } }
          else
            none
      | _, _ => none
  | .endRequest => some { state with request := none }
  | .arrives data => some { state with socket := state.socket ++ [data] }

end Steps

/-- Who receives from the socket. -/
inductive Receiver where
  | stream
  | request

namespace State

variable (order : ByteOrder)

def inbox (state : State τ) : Receiver → List Datagram
  | .stream => state.stream.elim [] OpenStream.received
  | .request => state.request.elim [] Request.received

/-- A receiver that has not come to its end awaits messages with a seq. -/
def Awaits (state : State τ) (seq : Nat) : Receiver → Prop
  | .stream =>
      ∃ opened, state.stream = some opened ∧
        opened.stream.expectedSeq = seq ∧ opened.stream.ended = false
  | .request =>
      ∃ request, state.request = some request ∧ request.seq = seq ∧ request.waits order = true

end State

/-- The datagram that a step takes off the socket. -/
def taken (state : State τ) : Action → Option Datagram
  | .pollReceives | .requestReceives => state.socket.head?
  | _ => none

/-- A receiver receives what is taken off the socket and bears a seq that it
awaits. -/
def Delivers (order : ByteOrder) (state : State τ) (action : Action) (next : State τ) : Prop :=
  ∀ data, taken state action = some data → ∀ seq, Bears order seq data →
      ∀ receiver, state.Awaits order seq receiver →
        next.inbox receiver = state.inbox receiver ++ [data]

/-- Neither the stream nor the request takes what bears a seq that the other
awaits. -/
def ReceivesOwn (order : ByteOrder) (state : State τ) (action : Action) : Prop :=
  ∀ data, taken state action = some data → ∀ seq, Bears order seq data →
      match action with
      | .pollReceives => ¬ state.Awaits order seq .request
      | .requestReceives => ¬ state.Awaits order seq .stream
      | _ => True

/-- No request waits while the stream does. -/
def Apart (order : ByteOrder) (state : State τ) : Prop :=
  ∀ seq other, state.Awaits order seq .stream → ¬ state.Awaits order other .request

section Delivery

variable {fromBytes : List UInt8 → Except Netlink.Error τ} {order : ByteOrder}
  {state next : State τ}

theorem pollReceives_eq_some (stepped : step? fromBytes order state .pollReceives = some next) :
    ∃ opened data rest, state.stream = some opened ∧ state.socket = data :: rest ∧
        opened.stream.ended = false ∧
        next =
          { state with
            socket := rest
            stream :=
              some
                { stream := opened.stream.drainIntoPending fromBytes order data
                  received := opened.received ++ [data] } } := by
  rw [step?] at stepped
  cases isStream : state.stream with
  | none =>
      rw [isStream] at stepped
      cases stepped
  | some opened =>
      cases isSocket : state.socket with
      | nil =>
          rw [isStream, isSocket] at stepped
          cases stepped
      | cons data rest =>
          rw [isStream, isSocket] at stepped
          dsimp only at stepped
          split at stepped
          · rename_i polls
            cases stepped
            exact ⟨opened, data, rest, rfl, rfl, polls.2, rfl⟩
          · cases stepped

theorem requestReceives_eq_some
    (stepped : step? fromBytes order state .requestReceives = some next) :
    ∃ request data rest, state.request = some request ∧ state.socket = data :: rest ∧
        request.waits order = true ∧
        next =
          { state with
            socket := rest
            request :=
              some { request with received := request.received ++ [data] } } := by
  rw [step?] at stepped
  cases isRequest : state.request with
  | none =>
      rw [isRequest] at stepped
      cases stepped
  | some request =>
      cases isSocket : state.socket with
      | nil =>
          rw [isRequest, isSocket] at stepped
          cases stepped
      | cons data rest =>
          rw [isRequest, isSocket] at stepped
          dsimp only at stepped
          split at stepped
          · rename_i waits
            cases stepped
            exact ⟨request, data, rest, rfl, rfl, waits, rfl⟩
          · cases stepped

theorem ne_append_singleton (items : List α) (item : α) : items ≠ items ++ [item] := by
  intro same
  have length := congrArg List.length same
  rw [length_append, length_singleton] at length
  omega

theorem delivers_step_iff {action : Action}
    (stepped : step? fromBytes order state action = some next) :
    Delivers order state action next ↔ ReceivesOwn order state action := by
  cases action with
  | pollReceives =>
      obtain ⟨opened, data, rest, isStream, isSocket, _, rfl⟩ := pollReceives_eq_some stepped
      constructor
      · intro delivers other isTaken seq bears awaits
        exact ne_append_singleton _ _ (delivers other isTaken seq bears .request awaits)
      · intro own other isTaken seq bears receiver awaits
        rw [taken, isSocket, head?_cons, Option.some.injEq] at isTaken
        cases receiver with
        | stream =>
            subst isTaken
            simp [State.inbox, isStream]
        | request =>
            refine absurd awaits (own other ?_ seq bears)
            rw [taken, isSocket, head?_cons, isTaken]
  | requestReceives =>
      obtain ⟨request, data, rest, isRequest, isSocket, _, rfl⟩ := requestReceives_eq_some stepped
      constructor
      · intro delivers other isTaken seq bears awaits
        exact ne_append_singleton _ _ (delivers other isTaken seq bears .stream awaits)
      · intro own other isTaken seq bears receiver awaits
        rw [taken, isSocket, head?_cons, Option.some.injEq] at isTaken
        cases receiver with
        | stream =>
            refine absurd awaits (own other ?_ seq bears)
            rw [taken, isSocket, head?_cons, isTaken]
        | request =>
            subst isTaken
            simp [State.inbox, isRequest]
  | openStream _ | dropStream | pollItem | beginRequest _ _ | endRequest
  | arrives _ =>
      exact iff_of_true (fun _ isTaken => nomatch isTaken) (fun _ isTaken => nomatch isTaken)

theorem receivesOwn_of_apart {action : Action} (apart : Apart order state)
    (stepped : step? fromBytes order state action = some next) :
    ReceivesOwn order state action := by
  intro data isTaken seq _
  cases action with
  | pollReceives =>
      obtain ⟨opened, _, _, isStream, _, going, _⟩ := pollReceives_eq_some stepped
      exact apart opened.stream.expectedSeq seq ⟨opened, isStream, rfl, going⟩
  | requestReceives =>
      obtain ⟨request, _, _, isRequest, _, waits, _⟩ := requestReceives_eq_some stepped
      exact fun awaits => apart seq request.seq awaits ⟨request, isRequest, rfl, waits⟩
  | openStream _ | dropStream | pollItem | beginRequest _ _ | endRequest
  | arrives _ => trivial

end Delivery

/-- Over well-formed datagrams whose data parses, the typed stream agrees with
`dump_command` exactly when the dump ends in a kernel error or no message of it
says that it is inconsistent.  In every run beside requests, both receive all
that they await exactly when no step takes what the other awaits; and this is so
if no request waits while the stream does. -/
theorem typedStream_iff (fromBytes : List UInt8 → Except Netlink.Error τ) (order : ByteOrder)
    (seq : Nat) (incoming : List Datagram) (wellFormed : ∀ data ∈ incoming, WellFormed order data)
    (parses : Parses order fromBytes (messagesFor order seq incoming)) (count : Nat)
    (enough : (messagesFor order seq incoming).length < count) (steps : List (Action × State τ))
    (run : Execution (step? fromBytes order) (new τ) steps) :
    (GenlDumpsAgree fromBytes ((GenlTypedDumpStream.new τ seq).polls fromBytes order count incoming)
          (dumpDatagrams order seq [] incoming) ↔
        EndsInFailure order (messagesFor order seq incoming) ∨
          Uninterrupted order (messagesFor order seq incoming)) ∧
      (Execution.EachStep (Delivers order) (new τ) steps ↔
        Execution.Guarded (ReceivesOwn order) (new τ) steps) ∧
      (Execution.Always (Apart order) (new τ) steps →
        Execution.EachStep (Delivers order) (new τ) steps) := by
  have step : ∀ state action next, True → step? fromBytes order state action = some next →
        (Delivers order state action next ↔ ReceivesOwn order state action) :=
    fun _ _ _ _ stepped => delivers_step_iff stepped
  have exactly : Execution.EachStep (Delivers order) (new τ) steps ↔
        Execution.Guarded (ReceivesOwn order) (new τ) steps :=
    Execution.eachStep_iff_guarded (fun _ _ _ always _ _ => always) step run
      (Execution.guarded_true _ _) trivial
  exact ⟨genlDumps_agree_iff order wellFormed parses enough, exactly, fun apart => exactly.mpr
      (apart.guarded run fun _ _ _ here stepped => receivesOwn_of_apart here stepped)⟩

def rawAttrs (attrs : List UInt8) : Except Netlink.Error (List UInt8) :=
  .ok attrs

/-- A message of the dump with seq 1 that has a generic header only. -/
def dumpMessage (flags : Nat) : List UInt8 :=
  NlMsgHdr.asBytes .little
      { nlmsgLen := 20
        nlmsgType := 16
        nlmsgFlags := flags
        nlmsgSeq := 1
        nlmsgPid := 0 } ++
    [1, 1, 0, 0]

/-- A dump of one message, whose flags are given. -/
def dumpOfOne (flags : Nat) : List Datagram :=
  [dumpMessage flags ++ bareMessage NlMsgType.DONE NLM_F_MULTI]

theorem wellFormed_dumpOfOne : (∀ data ∈ dumpOfOne NLM_F_MULTI, WellFormed .little data) ∧
      ∀ data ∈ dumpOfOne NLM_F_DUMP_INTR, WellFormed .little data := by
  unfold WellFormed
  decide +kernel

theorem parses_rawAttrs {order : ByteOrder} {messages : List Message}
    (long : ∀ message ∈ messages, reading order message = .data → GENL_HDRLEN ≤ message.2.length) :
    Parses order rawAttrs messages :=
  fun message member isData => ⟨long message member isData, _, rfl⟩

/-- The stream comes to its end, and then a request is sent. -/
def oneAfterTheOther : List Action :=
  [.openStream 1, .arrives (bareMessage NlMsgType.DONE NLM_F_MULTI),
    .pollReceives, .dropStream, .beginRequest .sendAck 2,
    .arrives (replyDatagram .little 0 2), .requestReceives, .endRequest]

/-- A complete dump is the same for both, and one after the other the stream and
a request receive what they await. -/
theorem typedStream_iff_oneAfterTheOther : GenlDumpsAgree rawAttrs
        ((GenlTypedDumpStream.new _ 1).polls rawAttrs .little 3 (dumpOfOne NLM_F_MULTI))
        (dumpDatagrams .little 1 [] (dumpOfOne NLM_F_MULTI)) ∧
      ∃ steps, steps.map Prod.fst = oneAfterTheOther ∧
          Execution.EachStep (Delivers .little) (new (List UInt8)) steps := by
  obtain ⟨steps, actions, run, apart⟩ : ∃ steps, steps.map Prod.fst = oneAfterTheOther ∧
          Execution (step? rawAttrs .little) (new (List UInt8)) steps ∧
          Execution.Always (Apart .little) (new (List UInt8)) steps := by
    refine ⟨[(_, _), (_, _), (_, _), (_, _), (_, _), (_, _), (_, _), (_, _)], rfl,
      .cons rfl (.cons rfl (.cons rfl (.cons rfl (.cons rfl (.cons rfl
        (.cons rfl (.cons rfl (.nil _)))))))), ?_⟩
    simp [Execution.Always, Apart, State.Awaits, new]
  have long : ∀ message ∈ messagesFor .little 1 (dumpOfOne NLM_F_MULTI),
      reading .little message = .data → GENL_HDRLEN ≤ message.2.length := by
    decide +kernel
  obtain ⟨agrees, _, delivers⟩ := typedStream_iff rawAttrs .little 1
    (dumpOfOne NLM_F_MULTI) wellFormed_dumpOfOne.1 (parses_rawAttrs long) 3
    (by decide +kernel) steps run
  refine ⟨agrees.mpr (Or.inr ?_), steps, actions, delivers apart⟩
  unfold Uninterrupted
  decide +kernel

/-- An interrupted dump is complete to the stream, and a poll takes the
acknowledgement that a request waits for. -/
theorem typedStream_misses_interruption :
    ((∀ data ∈ dumpOfOne NLM_F_DUMP_INTR, WellFormed .little data) ∧
        dumpDatagrams .little 1 [] (dumpOfOne NLM_F_DUMP_INTR) = .failed .dumpInterrupted ∧
        ¬ GenlDumpsAgree rawAttrs
          ((GenlTypedDumpStream.new _ 1).polls rawAttrs .little 3 (dumpOfOne NLM_F_DUMP_INTR))
          (dumpDatagrams .little 1 [] (dumpOfOne NLM_F_DUMP_INTR))) ∧
      ∃ steps, steps.map Prod.fst =
            [.openStream 1, .beginRequest .sendAck 2,
              .arrives (replyDatagram .little 0 2), .pollReceives] ∧
          Execution (step? rawAttrs .little) (new (List UInt8)) steps ∧
          ¬ Execution.EachStep (Delivers .little) (new (List UInt8)) steps := by
  have fails : dumpDatagrams .little 1 [] (dumpOfOne NLM_F_DUMP_INTR) =
      .failed .dumpInterrupted := by
    decide +kernel
  have completes :
      ((GenlTypedDumpStream.new _ 1).polls rawAttrs .little 3
        (dumpOfOne NLM_F_DUMP_INTR)).all Except.isOk = true := by
    decide +kernel
  refine ⟨⟨wellFormed_dumpOfOne.2, fails, fun agrees => ?_⟩, [(_, _), (_, _), (_, _), (_, _)], rfl,
    .cons rfl (.cons rfl (.cons rfl (.cons rfl (.nil _)))), ?_⟩
  · obtain ⟨error, member⟩ := agrees.1.mpr ⟨_, fails⟩
    have isOk := all_eq_true.mp completes _ member
    cases isOk
  · rintro ⟨_, _, _, delivers, _⟩
    have bears : Bears .little 2 (replyDatagram .little 0 2) := by
      refine ⟨(replyHeader 2, replyPayload .little 0 2), ?_, rfl⟩
      rw [messageIter_replyDatagram .little 0 (by decide)]
      exact mem_cons_self
    have received := delivers (replyDatagram .little 0 2) rfl 2 bears .request ⟨_, rfl, rfl, rfl⟩
    cases received

end Nlink.Generic.SharedDump
