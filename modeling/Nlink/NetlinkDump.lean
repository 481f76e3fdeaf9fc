import Mathlib.Data.List.Forall2
import Nlink.NetlinkBuilder

namespace Nlink.Netlink

open List

/-!
# Receiving datagrams

The socket is a queue of datagrams.  A receive with `MSG_TRUNC` removes the
head, copies what fits and returns the true length.  When a datagram does not
fit, `recv_msg` enlarges its buffer and receives again, but the datagram that
told it so is already gone.
-/

abbrev Datagram := List UInt8

def RECV_INITIAL_CAPACITY : Nat := 32 * 1024
def RECV_MAX_CAPACITY : Nat := 1024 * 1024

/-- `usize::next_multiple_of`. -/
def nextMultipleOf (number unit : Nat) : Nat :=
  (number + (unit - 1)) / unit * unit

/-- A receive with `MSG_TRUNC` of the datagram at the head of the queue: the
bytes copied and the true length. -/
def recv (capacity : Nat) (datagram : Datagram) : List UInt8 × Nat :=
  (datagram.take capacity, datagram.length)

/-- The grow-and-retry loop, from a capacity on.  On an empty queue the call
waits. -/
def recvMsgFrom (capacity : Nat) : List Datagram → Option (Except Error Datagram × List Datagram)
  | [] => none
  | datagram :: queue =>
      let (buffer, received) := recv capacity datagram
      if received ≤ capacity then
        some (.ok buffer, queue)
      else
        let next := nextMultipleOf received 4096
        if next > RECV_MAX_CAPACITY then
          some (.error (.frameTruncated received capacity), queue)
        else
          recvMsgFrom next queue

theorem recvMsgFrom_cons (capacity : Nat) (datagram : Datagram) (queue : List Datagram) :
    recvMsgFrom capacity (datagram :: queue) =
      if datagram.length ≤ capacity then
        some (.ok (datagram.take capacity), queue)
      else if nextMultipleOf datagram.length 4096 > RECV_MAX_CAPACITY then
        some (.error (.frameTruncated datagram.length capacity), queue)
      else
        recvMsgFrom (nextMultipleOf datagram.length 4096) queue :=
  rfl

/-- One call of `recv_msg`. -/
def recvMsg (queue : List Datagram) : Option (Except Error Datagram × List Datagram) :=
  recvMsgFrom RECV_INITIAL_CAPACITY queue

/-- The results of the first calls of `recv_msg`, up to one that waits. -/
def recvMsgs : Nat → List Datagram → List (Except Error Datagram)
  | 0, _ => []
  | calls + 1, queue =>
      match recvMsg queue with
      | none => []
      | some (result, rest) => result :: recvMsgs calls rest

/-- A result accounts for a datagram: it is the datagram itself, or the report
that the datagram was too large. -/
def Accounts (result : Except Error Datagram) (datagram : Datagram) : Prop :=
  result = .ok datagram ∨ ∃ bufferSize, result = .error (.frameTruncated datagram.length bufferSize)

/-- Datagrams that `recv_msg` takes without a second receive. -/
def TakenAtOnce (datagram : Datagram) : Prop :=
  datagram.length ≤ RECV_INITIAL_CAPACITY ∨ nextMultipleOf datagram.length 4096 > RECV_MAX_CAPACITY

theorem recvMsgFrom_suffix {capacity : Nat} {queue rest : List Datagram}
    {result : Except Error Datagram} (returns : recvMsgFrom capacity queue = some (result, rest)) :
    ∃ dropped datagram, queue = dropped ++ datagram :: rest ∧ Accounts result datagram := by
  induction queue generalizing capacity with
  | nil => cases returns
  | cons datagram queue ih =>
      rw [recvMsgFrom_cons] at returns
      split at returns
      · rename_i fits
        cases returns
        refine ⟨[], datagram, rfl, Or.inl ?_⟩
        rw [take_of_length_le fits]
      · split at returns
        · cases returns
          exact ⟨[], datagram, rfl, Or.inr ⟨capacity, rfl⟩⟩
        · obtain ⟨dropped, last, shape, accounts⟩ := ih returns
          exact ⟨datagram :: dropped, last, by rw [shape]; rfl, accounts⟩

variable (calls : Nat)

theorem recvMsgs_accounts (queue : List Datagram) : ∃ kept, List.Sublist kept queue ∧
      List.Forall₂ Accounts (recvMsgs calls queue) kept := by
  induction calls generalizing queue with
  | zero => exact ⟨[], nil_sublist _, .nil⟩
  | succ calls ih =>
      rw [recvMsgs]
      cases returns : recvMsg queue with
      | none => exact ⟨[], nil_sublist _, .nil⟩
      | some step =>
          obtain ⟨result, rest⟩ := step
          obtain ⟨dropped, datagram, shape, accounts⟩ := recvMsgFrom_suffix returns
          obtain ⟨kept, sublist, each⟩ := ih rest
          refine ⟨datagram :: kept, ?_, .cons accounts each⟩
          rw [shape]
          exact (sublist.cons_cons datagram).trans (sublist_append_right dropped _)

theorem recvMsgs_length_le (queue : List Datagram) :
    (recvMsgs calls queue).length ≤ queue.length := by
  obtain ⟨kept, sublist, each⟩ := recvMsgs_accounts calls queue
  rw [each.length_eq]
  exact sublist.length_le

theorem recvMsg_takenAtOnce {datagram : Datagram} (queue : List Datagram)
    (takenAtOnce : TakenAtOnce datagram) :
    ∃ result, recvMsg (datagram :: queue) = some (result, queue) ∧ Accounts result datagram := by
  by_cases fits : datagram.length ≤ RECV_INITIAL_CAPACITY
  · refine ⟨.ok datagram, ?_, Or.inl rfl⟩
    rw [recvMsg, recvMsgFrom_cons, if_pos fits, take_of_length_le fits]
  · have tooLarge : nextMultipleOf datagram.length 4096 > RECV_MAX_CAPACITY :=
      takenAtOnce.resolve_left fits
    refine ⟨_, ?_, Or.inr ⟨RECV_INITIAL_CAPACITY, rfl⟩⟩
    rw [recvMsg, recvMsgFrom_cons, if_neg fits, if_pos tooLarge]

theorem recvMsgs_lost {datagram : Datagram} (queue : List Datagram)
    (lost : ¬ TakenAtOnce datagram) :
    (recvMsgs calls (datagram :: queue)).length ≤ queue.length := by
  obtain ⟨tooLong, growing⟩ := not_or.mp lost
  cases calls with
  | zero => exact Nat.zero_le _
  | succ calls =>
      have retries : recvMsg (datagram :: queue) =
          recvMsgFrom (nextMultipleOf datagram.length 4096) queue := by
        rw [recvMsg, recvMsgFrom_cons, if_neg tooLong, if_neg growing]
      rw [recvMsgs, retries]
      cases returns :
          recvMsgFrom (nextMultipleOf datagram.length 4096) queue with
      | none => exact Nat.zero_le _
      | some step =>
          obtain ⟨result, rest⟩ := step
          obtain ⟨dropped, last, shape, _⟩ := recvMsgFrom_suffix returns
          have later := recvMsgs_length_le calls rest
          rw [shape, length_append, length_cons]
          simp only [length_cons]
          omega

/-- Enough calls of `recv_msg` account for every datagram of a queue, in order,
exactly when each datagram is taken at once. -/
theorem recvMsgs_accounts_iff (queue : List Datagram) (calls : Nat)
    (enough : queue.length ≤ calls) :
    List.Forall₂ Accounts (recvMsgs calls queue) queue ↔
      ∀ datagram ∈ queue, TakenAtOnce datagram := by
  induction queue generalizing calls with
  | nil => cases calls <;> simp [recvMsgs, recvMsg, recvMsgFrom]
  | cons datagram queue ih =>
      obtain ⟨calls, rfl⟩ : ∃ less, calls = less + 1 := ⟨calls - 1, by simp at enough; omega⟩
      have fewer : queue.length ≤ calls := by simpa using enough
      by_cases takenAtOnce : TakenAtOnce datagram
      · obtain ⟨result, returns, accounts⟩ := recvMsg_takenAtOnce queue takenAtOnce
        rw [recvMsgs, returns]
        simp only [forall₂_cons, forall_mem_cons]
        rw [ih calls fewer]
        simp [accounts, takenAtOnce]
      · constructor
        · intro each
          have lost := recvMsgs_lost (calls + 1) queue takenAtOnce
          have sameLength := each.length_eq
          rw [length_cons] at sameLength
          omega
        · intro allTaken
          exact absurd (allTaken datagram (mem_cons_self ..)) takenAtOnce

/-- A queue of two ordinary datagrams is received whole. -/
theorem recvMsgs_accounts_iff_ordinary :
    List.Forall₂ Accounts (recvMsgs 2 [[1], [2, 3]]) [[1], [2, 3]] :=
  (recvMsgs_accounts_iff [[1], [2, 3]] 2 (by decide)).mpr
    (by simp [TakenAtOnce, RECV_INITIAL_CAPACITY])

theorem recvMsgs_two {large small : Datagram} (largeLength : large.length = 40000)
    (smallLength : small.length = 10) : recvMsgs 2 [large, small] = [.ok small] := by
  have fits : small.length ≤ nextMultipleOf large.length 4096 := by
    rw [largeLength, smallLength]
    decide
  have grows : ¬ nextMultipleOf large.length 4096 > RECV_MAX_CAPACITY := by
    rw [largeLength]
    decide
  have tooLong : ¬ large.length ≤ RECV_INITIAL_CAPACITY := by
    rw [largeLength]
    decide
  have returns : recvMsg [large, small] = some (.ok small, []) := by
    rw [recvMsg, recvMsgFrom_cons, if_neg tooLong, if_neg grows,
      recvMsgFrom_cons, if_pos fits, take_of_length_le fits]
  rw [recvMsgs, returns]
  rfl

/-- A datagram of 40000 bytes is lost, and ten bytes are returned in its
place. -/
theorem recvMsgs_loses : ¬ List.Forall₂ Accounts
      (recvMsgs 2 [List.replicate 40000 0, List.replicate 10 1])
      [List.replicate 40000 0, List.replicate 10 1] := by
  intro each
  have sameLength := each.length_eq
  rw [recvMsgs_two length_replicate length_replicate] at sameLength
  simp only [length_cons, length_nil] at sameLength
  omega

open Foundation

/-!
## Eager and streaming dumps

`send_dump` collects the messages of a dump before it returns them.
`DumpStream` parses them as it is polled.  Both walk the messages of each
datagram with a loop of their own.
-/

/-- How far an eager dump has come, with the messages collected so far. -/
inductive Progress (α : Type) where
  | running (collected : α)
  | finished (collected : α)
  | failed (error : Error)
  deriving DecidableEq

/-- The error that an error message stands for, if it is not an
acknowledgement.  A payload that is too short is an error of its own. -/
def checkError (order : ByteOrder) (header : NlMsgHdr) (payload : List UInt8) : Option Error :=
  if header.isError then
    match NlMsgError.fromBytes order payload with
    | .error error => some error
    | .ok err => if err.isAck then none else some (err.intoError order payload)
  else
    none

/-- The loop of `send_dump` over the messages of one datagram. -/
def collectMessages (order : ByteOrder) (seq : Nat) (data : List UInt8) :
    Nat → List (List UInt8) → List (Except Error Message) → Progress (List (List UInt8))
  | _, responses, [] => .running responses
  | _, responses, .error _ :: _ =>
      -- A malformed frame ends the datagram, not the dump.
      .running responses
  | msgStart, responses, .ok (header, payload) :: rest =>
      let msgLen := header.nlmsgLen
      let aligned := nlmsgAlign msgLen
      if header.nlmsgSeq ≠ seq then
        collectMessages order seq data (msgStart + aligned) responses rest
      else if header.isDumpInterrupted then
        .failed .dumpInterrupted
      else
        match checkError order header payload with
        | some error => .failed error
        | none =>
            if header.isDone then
              .finished responses
            else if msgStart + msgLen ≤ data.length then
              collectMessages order seq data (msgStart + aligned)
                (responses ++ [(data.drop msgStart).take msgLen]) rest
            else
              collectMessages order seq data (msgStart + aligned) responses rest

/-- The outer loop of `send_dump` over the datagrams received. -/
def sendDumpLoop (order : ByteOrder) (seq : Nat) :
    List (List UInt8) → List Datagram → Progress (List (List UInt8))
  | responses, [] => .running responses
  | responses, data :: incoming =>
      match collectMessages order seq data 0 responses
          (messageIter order data) with
      | .running responses => sendDumpLoop order seq responses incoming
      | .finished responses => .finished responses
      | .failed error => .failed error

/-- `send_dump_mutex`: the datagrams come from the socket. -/
def sendDumpMutex (order : ByteOrder) (seq : Nat) (incoming : List Datagram) :
    Progress (List (List UInt8)) :=
  sendDumpLoop order seq [] incoming

/-- `send_dump_dispatch`: the datagrams come from the driver. -/
def sendDumpDispatch (order : ByteOrder) (seq : Nat) (incoming : List Datagram) :
    Progress (List (List UInt8)) :=
  sendDumpLoop order seq [] incoming

/-- What a type that dumps can be parsed into provides. -/
structure FromNetlink (τ : Type) where
  fromBytes : List UInt8 → Except Error τ
  setMsgType : Nat → τ → τ

/-- The typed parse of a message, with the type it arrived with. -/
def FromNetlink.parse (fromNetlink : FromNetlink τ) (message : Message) : Except Error τ :=
  match fromNetlink.fromBytes message.2 with
  | .ok item => .ok (fromNetlink.setMsgType message.1.nlmsgType item)
  | .error error => .error error

/-- A streaming dump. -/
structure DumpStream (τ : Type) where
  expectedSeq : Nat
  pending : List (Except Error τ)
  done : Bool
  errored : Bool
  skipMalformed : Bool

namespace DumpStream

/-- The stream for a request that was just sent, with default settings. -/
def new (τ : Type) (seq : Nat) : DumpStream τ where
  expectedSeq := seq
  pending := []
  done := false
  errored := false
  skipMalformed := false

def pushBack (stream : DumpStream τ) (item : Except Error τ) : DumpStream τ :=
  { stream with pending := stream.pending ++ [item] }

/-- Append an error and end the stream. -/
def fuse (stream : DumpStream τ) (error : Error) : DumpStream τ :=
  { stream.pushBack (.error error) with errored := true }

/-- The loop of `drain_into_pending` over the messages of one datagram. -/
def drainMessages (fromNetlink : FromNetlink τ) (order : ByteOrder) :
    DumpStream τ → List (Except Error Message) → DumpStream τ
  | stream, [] => stream
  | stream, .error error :: rest =>
      if stream.skipMalformed then
        drainMessages fromNetlink order stream rest
      else
        stream.fuse error
  | stream, .ok (header, payload) :: rest =>
      if header.nlmsgSeq ≠ stream.expectedSeq then
        drainMessages fromNetlink order stream rest
      else if header.isError then
        match NlMsgError.fromBytes order payload with
        | .ok err =>
            if err.isAck then
              drainMessages fromNetlink order stream rest
            else
              stream.fuse (err.intoError order payload)
        | .error error =>
            if stream.skipMalformed then
              drainMessages fromNetlink order stream rest
            else
              stream.fuse error
      else if header.isDone then
        { stream with done := true }
      else
        match fromNetlink.parse (header, payload) with
        | .ok item => drainMessages fromNetlink order (stream.pushBack (.ok item)) rest
        | .error error =>
            if stream.skipMalformed then
              drainMessages fromNetlink order stream rest
            else
              drainMessages fromNetlink order (stream.pushBack (.error error)) rest

/-- `drain_into_pending`. -/
def drainIntoPending (fromNetlink : FromNetlink τ) (order : ByteOrder)
    (stream : DumpStream τ) (data : Datagram) : DumpStream τ :=
  drainMessages fromNetlink order stream (messageIter order data)

/-- The loop of `poll_next` over the datagrams that have arrived.  The answer
is an item, the end of the stream, or nothing yet. -/
def pollFrames (fromNetlink : FromNetlink τ) (order : ByteOrder) : DumpStream τ → List Datagram →
      Option (Option (Except Error τ)) × DumpStream τ × List Datagram
  | stream, [] => (none, stream, [])
  | stream, data :: incoming =>
      let stream := stream.drainIntoPending fromNetlink order data
      match stream.pending with
      | item :: rest => (some (some item), { stream with pending := rest }, incoming)
      | [] =>
          if stream.done || stream.errored then
            (some none, stream, incoming)
          else
            pollFrames fromNetlink order stream incoming

/-- `poll_next`. -/
def pollNext (fromNetlink : FromNetlink τ) (order : ByteOrder)
    (stream : DumpStream τ) (incoming : List Datagram) :
    Option (Option (Except Error τ)) × DumpStream τ × List Datagram :=
  match stream.pending with
  | item :: rest => (some (some item), { stream with pending := rest }, incoming)
  | [] =>
      if stream.done || stream.errored then
        (some none, stream, incoming)
      else
        pollFrames fromNetlink order stream incoming

/-- The items that the first polls yield, up to the end of the stream or of
the datagrams, and whether the stream failed as a whole. -/
def polls (fromNetlink : FromNetlink τ) (order : ByteOrder) :
    Nat → DumpStream τ → List Datagram → List (Except Error τ) × Bool
  | 0, stream, _ => ([], stream.errored)
  | count + 1, stream, incoming =>
      match stream.pollNext fromNetlink order incoming with
      | (some (some item), stream, incoming) =>
          let (items, errored) := polls fromNetlink order count stream incoming
          (item :: items, errored)
      | (_, stream, _) => ([], stream.errored)

end DumpStream

/-- The message that a collected response holds. -/
def readResponse (order : ByteOrder) (response : List UInt8) : Except Error Message :=
  match NlMsgHdr.fromBytes order response with
  | .ok header => .ok (header, response.drop NLMSG_HDRLEN)
  | .error error => .error error

def parseResponse (fromNetlink : FromNetlink τ) (order : ByteOrder)
    (response : List UInt8) : Except Error τ :=
  match readResponse order response with
  | .ok message => fromNetlink.parse message
  | .error error => .error error

/-- The two dumps agree: they fail together, and otherwise the items of the
stream are the parses of the collected responses, in order. -/
def DumpsAgree (fromNetlink : FromNetlink τ) (order : ByteOrder)
    (stream : List (Except Error τ) × Bool)
    (eager : Progress (List (List UInt8))) : Prop :=
  match eager with
  | .failed _ => stream.2 = true
  | .running responses =>
      stream.2 = false ∧ stream.1 = responses.map (parseResponse fromNetlink order)
  | .finished responses =>
      stream.2 = false ∧ stream.1 = responses.map (parseResponse fromNetlink order)

/-- Every message of the datagram is well formed. -/
def WellFormed (order : ByteOrder) (data : Datagram) : Prop :=
  ∀ message ∈ messageIter order data, message.isOk = true

/-- The well-formed messages for a request among those iterated. -/
def okFor (seq : Nat) : List (Except Error Message) → List Message
  | [] => []
  | .error _ :: rest => okFor seq rest
  | .ok message :: rest =>
      if message.1.nlmsgSeq = seq then message :: okFor seq rest else okFor seq rest

/-- The messages that a request receives from the datagrams. -/
def messagesFor (order : ByteOrder) (seq : Nat) (incoming : List Datagram) : List Message :=
  incoming.flatMap fun data => okFor seq (messageIter order data)

/-- What a message means for a dump. -/
inductive Reading where
  | failure (error : Error)
  | ack
  | done
  | data
  deriving DecidableEq

/-- What a message means, by its type and, for errors, its payload. -/
def reading (order : ByteOrder) (message : Message) : Reading :=
  if message.1.isError then
    match NlMsgError.fromBytes order message.2 with
    | .error error => .failure error
    | .ok err => if err.isAck then .ack else .failure (err.intoError order message.2)
  else if message.1.isDone then
    .done
  else
    .data

/-- Whether a message ends a dump, well or badly. -/
def Reading.isTerminal : Reading → Bool
  | .failure _ => true
  | .done => true
  | _ => false

/-- The dump's messages before the one that ends it. -/
def beforeEnd (order : ByteOrder) (messages : List Message) : List Message :=
  messages.takeWhile fun message => !(reading order message).isTerminal

/-- The message that ends the dump. -/
def endOf (order : ByteOrder) (messages : List Message) : Option Message :=
  messages.find? fun message => (reading order message).isTerminal

/-- The dump ends with a kernel error. -/
def EndsInFailure (order : ByteOrder) (messages : List Message) : Prop :=
  ∃ message error, endOf order messages = some message ∧ reading order message = .failure error

/-- No message of the dump, its end included, says that it is inconsistent. -/
def Uninterrupted (order : ByteOrder) (messages : List Message) : Prop :=
  (∀ message ∈ beforeEnd order messages, message.1.isDumpInterrupted = false) ∧
    ∀ message, endOf order messages = some message → message.1.isDumpInterrupted = false

/-- No acknowledgement arrives within the dump. -/
def Unacknowledged (order : ByteOrder) (messages : List Message) : Prop :=
  ∀ message ∈ beforeEnd order messages, reading order message ≠ .ack

end Nlink.Netlink
