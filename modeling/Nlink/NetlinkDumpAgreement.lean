import Nlink.NetlinkDump

namespace Nlink.Netlink

open Foundation List

/-!
# When the eager and the streaming dump agree

Both loops are reduced to the list of messages that a request receives.  The
stream fails exactly when the dump ends in a kernel error, while the eager dump
also fails on the interrupted flag, which the stream does not read, and keeps
acknowledgements, which the stream skips.
-/

theorem checkError_eq_reading (order : ByteOrder) (message : Message) :
    checkError order message.1 message.2 =
      match reading order message with
      | .failure error => some error
      | _ => none := by
  rw [checkError, reading]
  cases message.1.isError with
  | true =>
      simp only [if_true]
      cases NlMsgError.fromBytes order message.2 with
      | error error => rfl
      | ok err => cases isAck : err.isAck <;> simp [isAck]
  | false => cases message.1.isDone <;> rfl

theorem isDone_iff_reading (order : ByteOrder) (message : Message) :
    message.1.isDone = true ↔ reading order message = .done := by
  rw [reading]
  cases isError : message.1.isError with
  | true =>
      have notDone : message.1.isDone = false := by
        simp only [NlMsgHdr.isError, NlMsgHdr.isDone, beq_iff_eq,
          beq_eq_false_iff_ne, NlMsgType.ERROR, NlMsgType.DONE]
          at isError ⊢
        omega
      rw [notDone]
      simp only [if_true]
      cases NlMsgError.fromBytes order message.2 with
      | error error => simp
      | ok err => cases isAck : err.isAck <;> simp [isAck]
  | false => cases message.1.isDone <;> simp

/-- The eager loop on the messages of a request alone. -/
def eagerOver (order : ByteOrder) : List Message → List Message → Progress (List Message)
  | collected, [] => .running collected
  | collected, message :: rest =>
      if message.1.isDumpInterrupted then
        .failed .dumpInterrupted
      else
        match reading order message with
        | .failure error => .failed error
        | .done => .finished collected
        | _ => eagerOver order (collected ++ [message]) rest

theorem eagerOver_append (order : ByteOrder) (collected first second : List Message) :
    eagerOver order collected (first ++ second) =
      match eagerOver order collected first with
      | .running collected => eagerOver order collected second
      | .finished collected => .finished collected
      | .failed error => .failed error := by
  induction first generalizing collected with
  | nil => rfl
  | cons message rest ih =>
      rw [cons_append, eagerOver, eagerOver]
      cases message.1.isDumpInterrupted with
      | true => rfl
      | false =>
          cases reading order message with
          | failure error => rfl
          | done => rfl
          | ack => exact ih _
          | data => exact ih _

/-- Responses that hold the given messages. -/
def Progress.Holds (order : ByteOrder) :
    Progress (List (List UInt8)) → Progress (List Message) → Prop
  | .running responses, .running messages => responses.map (readResponse order) = messages.map .ok
  | .finished responses, .finished messages => responses.map (readResponse order) = messages.map .ok
  | .failed left, .failed right => left = right
  | _, _ => False

variable {order : ByteOrder} {message : Message}

theorem readResponse_take {data rest : List UInt8}
    (next : nextMessage order data = some (.ok message, rest)) :
    NLMSG_HDRLEN ≤ message.1.nlmsgLen ∧ message.1.nlmsgLen ≤ data.length ∧
      rest = data.drop (nlmsgAlign message.1.nlmsgLen) ∧
      readResponse order (data.take message.1.nlmsgLen) = .ok message := by
  rw [nextMessage] at next
  split at next
  · cases next
  · split at next
    · cases next
    · rename_i header isHeader
      split at next
      · cases next
      · rename_i lengths
        obtain ⟨longEnough, inside⟩ := not_or.mp lengths
        cases next
        refine ⟨Nat.le_of_not_lt longEnough, Nat.le_of_not_lt inside, rfl, ?_⟩
        have sameHeader : NlMsgHdr.fromBytes order (data.take header.nlmsgLen) = .ok header := by
          rw [NlMsgHdr.fromBytes] at isHeader ⊢
          have headerLength : 16 ≤ header.nlmsgLen := Nat.le_of_not_lt longEnough
          have dataLength : header.nlmsgLen ≤ data.length := Nat.le_of_not_lt inside
          rw [if_neg (by omega)] at isHeader
          rw [if_neg (by rw [length_take]; omega)]
          rw [← isHeader]
          have sameField : ∀ start count, start + count ≤ header.nlmsgLen →
              ((data.take header.nlmsgLen).drop start).take count =
                (data.drop start).take count := by
            intro start count within
            rw [drop_take, take_take, Nat.min_eq_left (by omega)]
          have sameStart : (data.take header.nlmsgLen).take 4 = data.take 4 := by
            rw [take_take, Nat.min_eq_left (by omega)]
          rw [sameStart, sameField 4 2 (by omega), sameField 6 2 (by omega),
            sameField 8 4 (by omega), sameField 12 4 (by omega)]
        rw [readResponse, sameHeader]

variable {seq : Nat}

theorem collectMessages_cons {data : List UInt8} {msgStart : Nat} (responses : List (List UInt8))
    (rest : List (Except Error Message)) (forRequest : message.1.nlmsgSeq = seq)
    (inside : msgStart + message.1.nlmsgLen ≤ data.length) :
    collectMessages order seq data msgStart responses (.ok message :: rest) =
      if message.1.isDumpInterrupted then
        .failed .dumpInterrupted
      else
        match reading order message with
        | .failure error => .failed error
        | .done => .finished responses
        | _ =>
            collectMessages order seq data (msgStart + nlmsgAlign message.1.nlmsgLen)
              (responses ++ [(data.drop msgStart).take message.1.nlmsgLen]) rest := by
  obtain ⟨header, payload⟩ := message
  have checked := checkError_eq_reading order (header, payload)
  have isDone := isDone_iff_reading order (header, payload)
  simp only at checked isDone forRequest inside
  rw [collectMessages, if_neg (not_not.mpr forRequest), checked, if_pos inside]
  cases isReading : reading order (header, payload) with
  | failure error => rfl
  | done =>
      have ends : header.isDone = true := isDone.mpr isReading
      simp [ends]
  | ack | data =>
      rw [isReading] at isDone
      simp [isDone]

/-- The eager loop over one well-formed datagram is the loop over its
messages. -/
theorem collectMessages_holds (order : ByteOrder) (seq : Nat) (data : List UInt8)
    (fuel msgStart : Nat) (responses : List (List UInt8)) (collected : List Message)
    (wellFormed : ∀ item ∈ messagesFrom order fuel (data.drop msgStart), item.isOk = true)
    (same : responses.map (readResponse order) = collected.map .ok) :
    (collectMessages order seq data msgStart responses
        (messagesFrom order fuel (data.drop msgStart))).Holds order
      (eagerOver order collected (okFor seq (messagesFrom order fuel (data.drop msgStart)))) := by
  induction fuel generalizing msgStart responses collected with
  | zero => exact same
  | succ fuel ih =>
      rw [messagesFrom] at wellFormed ⊢
      cases next : nextMessage order (data.drop msgStart) with
      | none => exact same
      | some step =>
          obtain ⟨item, rest⟩ := step
          rw [next] at wellFormed
          simp only [forall_mem_cons] at wellFormed ⊢
          cases item with
          | error error => cases wellFormed.1
          | ok message =>
              obtain ⟨longEnough, inside, isRest, response⟩ := readResponse_take next
              have restIsDrop : rest = data.drop (msgStart + nlmsgAlign message.1.nlmsgLen) := by
                rw [isRest, drop_drop]
              have restWellFormed := wellFormed.2
              rw [restIsDrop] at restWellFormed ⊢
              rw [length_drop] at inside
              have within : msgStart + message.1.nlmsgLen ≤ data.length := by
                rw [NLMSG_HDRLEN] at longEnough
                omega
              rw [okFor]
              by_cases forRequest : message.1.nlmsgSeq = seq
              · rw [collectMessages_cons _ _ forRequest within, if_pos forRequest, eagerOver]
                cases message.1.isDumpInterrupted with
                | true => rfl
                | false =>
                    simp only [Bool.false_eq_true, if_false]
                    cases reading order message with
                    | failure error => rfl
                    | done => exact same
                    | _ =>
                        apply ih _ _ _ restWellFormed
                        simp [same, response]
              · obtain ⟨header, payload⟩ := message
                rw [collectMessages, if_pos forRequest, if_neg forRequest]
                exact ih _ responses collected restWellFormed same

theorem sendDumpLoop_holds (order : ByteOrder) (seq : Nat) (responses : List (List UInt8))
    (collected : List Message) (incoming : List Datagram)
    (wellFormed : ∀ data ∈ incoming, WellFormed order data)
    (same : responses.map (readResponse order) = collected.map .ok) :
    (sendDumpLoop order seq responses incoming).Holds order
      (eagerOver order collected (messagesFor order seq incoming)) := by
  induction incoming generalizing responses collected with
  | nil => exact same
  | cons data incoming ih =>
      have first := collectMessages_holds order seq data data.length 0 responses collected
        (by simpa [WellFormed, messageIter] using wellFormed data (mem_cons_self ..))
        same
      rw [drop_zero, ← messageIter] at first
      have later : ∀ responses collected, responses.map (readResponse order) = collected.map .ok →
            (sendDumpLoop order seq responses incoming).Holds order
              (eagerOver order collected (messagesFor order seq incoming)) :=
        fun responses collected =>
          ih responses collected
            (fun other member => wellFormed other (mem_cons_of_mem data member))
      rw [sendDumpLoop, messagesFor, flatMap_cons, eagerOver_append]
      revert first
      cases collectMessages order seq data 0 responses (messageIter order data) <;>
        cases eagerOver order collected (okFor seq (messageIter order data)) <;>
        intro first <;>
        first
          | exact later _ _ first
          | exact first
          | exact False.elim first

/-- The stream's loop on the messages of a request alone. -/
def streamOver (fromNetlink : FromNetlink τ) (order : ByteOrder) :
    DumpStream τ → List Message → DumpStream τ
  | stream, [] => stream
  | stream, message :: rest =>
      match reading order message with
      | .failure error => stream.fuse error
      | .ack => streamOver fromNetlink order stream rest
      | .done => { stream with done := true }
      | .data => streamOver fromNetlink order (stream.pushBack (fromNetlink.parse message)) rest

def DumpStream.ended (stream : DumpStream τ) : Bool :=
  stream.done || stream.errored

variable (fromNetlink : FromNetlink τ)

theorem drainMessages_cons {stream : DumpStream τ}
    (rest : List (Except Error Message)) (defaults : stream.skipMalformed = false)
    (forRequest : message.1.nlmsgSeq = stream.expectedSeq) :
    stream.drainMessages fromNetlink order (.ok message :: rest) =
      match reading order message with
      | .failure error => stream.fuse error
      | .ack => stream.drainMessages fromNetlink order rest
      | .done => { stream with done := true }
      | .data =>
          (stream.pushBack (fromNetlink.parse message)).drainMessages fromNetlink order rest := by
  obtain ⟨header, payload⟩ := message
  rw [DumpStream.drainMessages, if_neg (not_not.mpr forRequest), reading]
  cases header.isError with
  | true =>
      simp only [if_true]
      cases NlMsgError.fromBytes order payload with
      | error error => simp [defaults]
      | ok err => cases isAck : err.isAck <;> simp [isAck]
  | false =>
      cases header.isDone with
      | true => rfl
      | false => cases fromNetlink.parse (header, payload) <;> simp [defaults]

theorem drainMessages_eq (order : ByteOrder) (stream : DumpStream τ)
    (items : List (Except Error Message)) (wellFormed : ∀ item ∈ items, item.isOk = true)
    (defaults : stream.skipMalformed = false) :
    stream.drainMessages fromNetlink order items = streamOver fromNetlink order stream
        (okFor stream.expectedSeq items) := by
  induction items generalizing stream with
  | nil => rfl
  | cons item rest ih =>
      have restWellFormed : ∀ other ∈ rest, other.isOk = true :=
        fun other member => wellFormed other (mem_cons_of_mem item member)
      cases item with
      | error error => cases wellFormed _ (mem_cons_self ..)
      | ok message =>
          rw [okFor]
          by_cases forRequest : message.1.nlmsgSeq = stream.expectedSeq
          · rw [drainMessages_cons fromNetlink rest defaults forRequest,
              if_pos forRequest, streamOver]
            cases reading order message with
            | failure error => rfl
            | ack => exact ih stream restWellFormed defaults
            | done => rfl
            | data => exact ih _ restWellFormed defaults
          · obtain ⟨header, payload⟩ := message
            rw [DumpStream.drainMessages, if_pos forRequest, if_neg forRequest]
            exact ih stream restWellFormed defaults

theorem streamOver_settings (order : ByteOrder) (stream : DumpStream τ) (messages : List Message) :
    (streamOver fromNetlink order stream messages).expectedSeq = stream.expectedSeq ∧
      (streamOver fromNetlink order stream messages).skipMalformed =
        stream.skipMalformed := by
  induction messages generalizing stream with
  | nil => exact ⟨rfl, rfl⟩
  | cons message rest ih =>
      rw [streamOver]
      cases reading order message with
      | failure error => exact ⟨rfl, rfl⟩
      | ack => exact ih stream
      | done => exact ⟨rfl, rfl⟩
      | data => exact ih (stream.pushBack _)

theorem streamOver_append (order : ByteOrder) (stream : DumpStream τ)
    (first second : List Message) (notEnded : stream.ended = false) :
    streamOver fromNetlink order stream (first ++ second) =
      if (streamOver fromNetlink order stream first).ended then
        streamOver fromNetlink order stream first
      else
        streamOver fromNetlink order (streamOver fromNetlink order stream first) second := by
  induction first generalizing stream with
  | nil =>
      rw [List.nil_append, streamOver, notEnded]
      rfl
  | cons message rest ih =>
      rw [cons_append, streamOver, streamOver]
      cases reading order message with
      | failure error => simp [DumpStream.ended, DumpStream.fuse]
      | ack => exact ih stream notEnded
      | done => simp [DumpStream.ended]
      | data => exact ih (stream.pushBack _) notEnded

theorem streamOver_frame (order : ByteOrder) (stream : DumpStream τ)
    (item : Except Error τ) (messages : List Message) :
    streamOver fromNetlink order { stream with pending := item :: stream.pending } messages =
      { streamOver fromNetlink order stream messages with
        pending := item :: (streamOver fromNetlink order stream messages).pending } := by
  induction messages generalizing stream with
  | nil => rfl
  | cons message rest ih =>
      rw [streamOver, streamOver]
      cases reading order message with
      | failure error => rfl
      | ack => exact ih stream
      | done => rfl
      | data => exact ih (stream.pushBack _)

/-- A stream that ended, or else what it becomes over more messages. -/
def streamRest (fromNetlink : FromNetlink τ) (order : ByteOrder)
    (stream : DumpStream τ) (messages : List Message) : DumpStream τ :=
  if stream.ended then stream else streamOver fromNetlink order stream messages

theorem streamRest_cons_pending (order : ByteOrder)
    (stream : DumpStream τ) {item : Except Error τ} {rest : List (Except Error τ)}
    (messages : List Message) (queued : stream.pending = item :: rest) :
    (streamRest fromNetlink order stream messages).pending = item ::
          (streamRest fromNetlink order { stream with pending := rest } messages).pending ∧
      (streamRest fromNetlink order stream messages).errored =
        (streamRest fromNetlink order { stream with pending := rest } messages).errored := by
  have shape : stream =
      { { stream with pending := rest } with
        pending := item :: ({ stream with pending := rest } : DumpStream τ).pending } := by
    rw [← queued]
  have sameEnded : ({ stream with pending := rest } : DumpStream τ).ended =
        stream.ended :=
    rfl
  rw [streamRest, streamRest, sameEnded]
  cases stream.ended with
  | true => exact ⟨queued, rfl⟩
  | false =>
      simp only [Bool.false_eq_true, if_false]
      rw [shape, streamOver_frame]
      exact ⟨rfl, rfl⟩

/-- What an answer of `poll_next` says about the stream's run. -/
def AnswerFollows (fromNetlink : FromNetlink τ) (order : ByteOrder) (seq : Nat)
    (run : DumpStream τ) :
    Option (Option (Except Error τ)) × DumpStream τ × List Datagram → Prop
  | (some (some item), stream, incoming) =>
      stream.expectedSeq = seq ∧ stream.skipMalformed = false ∧
        (∀ data ∈ incoming, WellFormed order data) ∧
        run.pending =
          item :: (streamRest fromNetlink order stream (messagesFor order seq incoming)).pending ∧
        run.errored = (streamRest fromNetlink order stream (messagesFor order seq incoming)).errored
  | (_, stream, _) => run.pending = [] ∧ run.errored = stream.errored

theorem pollFrames_follows (order : ByteOrder) (stream : DumpStream τ)
    (incoming : List Datagram) (wellFormed : ∀ data ∈ incoming, WellFormed order data)
    (defaults : stream.skipMalformed = false) (notEnded : stream.ended = false)
    (noneQueued : stream.pending = []) :
    AnswerFollows fromNetlink order stream.expectedSeq
      (streamOver fromNetlink order stream (messagesFor order stream.expectedSeq incoming))
      (stream.pollFrames fromNetlink order incoming) := by
  induction incoming generalizing stream with
  | nil => exact ⟨noneQueued, rfl⟩
  | cons data incoming ih =>
      have laterWellFormed : ∀ other ∈ incoming, WellFormed order other :=
        fun other member => wellFormed other (mem_cons_of_mem data member)
      have drained := drainMessages_eq fromNetlink order stream (messageIter order data)
        (wellFormed data (mem_cons_self ..)) defaults
      obtain ⟨sameSeq, sameSkip⟩ := streamOver_settings fromNetlink order
        stream (okFor stream.expectedSeq (messageIter order data))
      rw [DumpStream.pollFrames, DumpStream.drainIntoPending, drained, messagesFor,
        flatMap_cons, ← messagesFor, streamOver_append fromNetlink order stream _ _ notEnded]
      revert sameSeq sameSkip
      generalize streamOver fromNetlink order stream
        (okFor stream.expectedSeq (messageIter order data)) = next
      intro sameSeq sameSkip
      rw [← sameSeq]
      cases queued : next.pending with
      | cons item rest =>
          have run := streamRest_cons_pending fromNetlink order next
            (messagesFor order next.expectedSeq incoming) queued
          exact ⟨rfl, sameSkip.trans defaults, laterWellFormed, run⟩
      | nil =>
          cases ended : next.ended with
          | true =>
              rw [DumpStream.ended] at ended
              rw [ended]
              exact ⟨queued, rfl⟩
          | false =>
              have follows := ih next laterWellFormed (sameSkip.trans defaults) ended queued
              rw [DumpStream.ended] at ended
              rw [ended]
              exact follows

theorem pollNext_follows (order : ByteOrder) (stream : DumpStream τ)
    (incoming : List Datagram) (wellFormed : ∀ data ∈ incoming, WellFormed order data)
    (defaults : stream.skipMalformed = false) :
    AnswerFollows fromNetlink order stream.expectedSeq
      (streamRest fromNetlink order stream (messagesFor order stream.expectedSeq incoming))
      (stream.pollNext fromNetlink order incoming) := by
  rw [DumpStream.pollNext]
  cases queued : stream.pending with
  | cons item rest =>
      exact ⟨rfl, defaults, wellFormed, streamRest_cons_pending fromNetlink order stream _ queued⟩
  | nil =>
      rw [streamRest]
      cases ended : stream.ended with
      | true =>
          rw [DumpStream.ended] at ended
          rw [ended]
          exact ⟨queued, rfl⟩
      | false =>
          have follows := pollFrames_follows fromNetlink order stream
            incoming wellFormed defaults ended queued
          rw [DumpStream.ended] at ended
          rw [ended]
          exact follows

/-- Polling the stream follows the scan of the messages. -/
theorem polls_eq (order : ByteOrder) (count : Nat)
    (stream : DumpStream τ) (incoming : List Datagram)
    (wellFormed : ∀ data ∈ incoming, WellFormed order data)
    (defaults : stream.skipMalformed = false)
    (enough :
      (streamRest fromNetlink order stream
        (messagesFor order stream.expectedSeq incoming)).pending.length <
        count) :
    stream.polls fromNetlink order count incoming =
      ((streamRest fromNetlink order stream
          (messagesFor order stream.expectedSeq incoming)).pending,
        (streamRest fromNetlink order stream
          (messagesFor order stream.expectedSeq incoming)).errored) := by
  induction count generalizing stream incoming with
  | zero => cases enough
  | succ count ih =>
      have follows := pollNext_follows fromNetlink order stream incoming wellFormed defaults
      rw [DumpStream.polls]
      revert follows
      rcases stream.pollNext fromNetlink order incoming with ⟨_ | _ | item, next, later⟩
      · rintro ⟨noItems, sameErrored⟩
        rw [noItems, sameErrored]
      · rintro ⟨noItems, sameErrored⟩
        rw [noItems, sameErrored]
      · rintro ⟨sameSeq, nextDefaults, laterWellFormed, items, errored⟩
        rw [items, length_cons] at enough
        rw [← sameSeq] at items errored enough
        have rest := ih next later laterWellFormed nextDefaults (by omega)
        rw [← sameSeq, items, errored]
        simp only
        rw [rest]

theorem streamOver_errored (order : ByteOrder) (stream : DumpStream τ)
    (messages : List Message) (notErrored : stream.errored = false) :
    (streamOver fromNetlink order stream messages).errored = true ↔
      EndsInFailure order messages := by
  induction messages generalizing stream with
  | nil => simp [streamOver, notErrored, EndsInFailure, endOf]
  | cons message rest ih =>
      rw [streamOver, EndsInFailure, endOf, find?_cons]
      cases isReading : reading order message with
      | failure error => simp [DumpStream.fuse, Reading.isTerminal, isReading]
      | ack => exact ih stream notErrored
      | done => simp [Reading.isTerminal, isReading, notErrored]
      | data => exact ih (stream.pushBack _) notErrored

/-- Whether a message acknowledges a request. -/
def isAck (order : ByteOrder) (message : Message) : Bool :=
  reading order message == .ack

theorem streamOver_pending (order : ByteOrder) (stream : DumpStream τ)
    (messages : List Message) (succeeds : ¬ EndsInFailure order messages) :
    (streamOver fromNetlink order stream messages).pending = stream.pending ++
        ((beforeEnd order messages).filter
          fun message => !isAck order message).map fromNetlink.parse := by
  induction messages generalizing stream with
  | nil => simp [streamOver, beforeEnd]
  | cons message rest ih =>
      rw [EndsInFailure, endOf, find?_cons] at succeeds
      rw [streamOver, beforeEnd, takeWhile_cons]
      cases isReading : reading order message with
      | failure error => simp [Reading.isTerminal, isReading] at succeeds
      | ack =>
          rw [isReading] at succeeds
          have later := ih stream succeeds
          simpa [Reading.isTerminal, isAck, isReading, beforeEnd] using later
      | done => simp [Reading.isTerminal]
      | data =>
          rw [isReading] at succeeds
          have later := ih (stream.pushBack (fromNetlink.parse message)) succeeds
          simpa [Reading.isTerminal, isAck, isReading, beforeEnd, DumpStream.pushBack] using later

theorem eagerOver_failed (order : ByteOrder) (collected messages : List Message) :
    (∃ error, eagerOver order collected messages = .failed error) ↔
      EndsInFailure order messages ∨ ¬ Uninterrupted order messages := by
  induction messages generalizing collected with
  | nil => simp [eagerOver, EndsInFailure, endOf, Uninterrupted, beforeEnd]
  | cons message rest ih =>
      rw [eagerOver, EndsInFailure, Uninterrupted, endOf, beforeEnd, find?_cons, takeWhile_cons]
      have later := ih (collected ++ [message])
      cases interrupted : message.1.isDumpInterrupted with
      | true =>
          cases isReading : reading order message <;>
            simp [Reading.isTerminal, interrupted]
      | false =>
          cases isReading : reading order message with
          | failure error => simp [Reading.isTerminal, isReading]
          | done => simp [Reading.isTerminal, interrupted, isReading]
          | ack | data =>
              simpa [Reading.isTerminal, interrupted, Uninterrupted,
                EndsInFailure, endOf, beforeEnd] using later

/-- The messages that a dump holds, when it has not failed. -/
def Progress.collected : Progress α → Option α
  | .running collected => some collected
  | .finished collected => some collected
  | .failed _ => none

theorem eagerOver_collected (order : ByteOrder) (collected messages : List Message)
    (succeeds : ¬ EndsInFailure order messages) (uninterrupted : Uninterrupted order messages) :
    (eagerOver order collected messages).collected =
      some (collected ++ beforeEnd order messages) := by
  induction messages generalizing collected with
  | nil => simp [eagerOver, Progress.collected, beforeEnd]
  | cons message rest ih =>
      rw [EndsInFailure, endOf, find?_cons] at succeeds
      rw [Uninterrupted, endOf, beforeEnd, find?_cons, takeWhile_cons] at uninterrupted
      rw [eagerOver, beforeEnd, takeWhile_cons]
      cases isReading : reading order message with
      | failure error => simp [Reading.isTerminal, isReading] at succeeds
      | done =>
          rw [isReading] at uninterrupted
          simp only [Reading.isTerminal] at uninterrupted
          simp [uninterrupted.2 message rfl, Reading.isTerminal, Progress.collected]
      | ack | data =>
          rw [isReading] at succeeds uninterrupted
          simp only [Reading.isTerminal, Bool.not_false, if_true, forall_mem_cons] at uninterrupted
          have later := ih (collected ++ [message]) succeeds ⟨uninterrupted.1.2, uninterrupted.2⟩
          simpa [uninterrupted.1.1, Reading.isTerminal, beforeEnd] using later

theorem streamOver_length_le (order : ByteOrder) (stream : DumpStream τ) (messages : List Message) :
    (streamOver fromNetlink order stream messages).pending.length ≤
      stream.pending.length + messages.length := by
  induction messages generalizing stream with
  | nil => exact Nat.le_refl _
  | cons message rest ih =>
      rw [streamOver, length_cons]
      cases reading order message with
      | failure error => simp [DumpStream.fuse, DumpStream.pushBack]
      | ack => exact Nat.le_trans (ih stream) (by omega)
      | done =>
          simp only
          omega
      | data =>
          have later := ih (stream.pushBack (fromNetlink.parse message))
          simp only [DumpStream.pushBack, length_append, length_singleton] at later ⊢
          omega

theorem length_withoutAcks (order : ByteOrder) (messages : List Message) :
    ((beforeEnd order messages).filter fun message => !isAck order message).length =
        (beforeEnd order messages).length ↔
      Unacknowledged order messages := by
  rw [length_filter_eq_length_iff, Unacknowledged]
  simp only [isAck, Bool.not_eq_true', beq_eq_false_iff_ne]

theorem sendDumpLoop_collected {incoming : List Datagram}
    (wellFormed : ∀ data ∈ incoming, WellFormed order data)
    (succeeds : ¬ EndsInFailure order (messagesFor order seq incoming))
    (uninterrupted : Uninterrupted order (messagesFor order seq incoming)) :
    ∃ responses,
      (sendDumpLoop order seq [] incoming = .running responses ∨
          sendDumpLoop order seq [] incoming = .finished responses) ∧
        responses.map (readResponse order) =
          (beforeEnd order (messagesFor order seq incoming)).map .ok := by
  have holds := sendDumpLoop_holds order seq [] [] incoming wellFormed rfl
  have collected := eagerOver_collected order []
    (messagesFor order seq incoming) succeeds uninterrupted
  revert holds collected
  cases sendDumpLoop order seq [] incoming with
  | running responses =>
      cases eagerOver order [] (messagesFor order seq incoming) with
      | running messages =>
          intro holds collected
          cases collected
          exact ⟨responses, Or.inl rfl, holds⟩
      | finished messages | failed error => exact fun holds => False.elim holds
  | finished responses =>
      cases eagerOver order [] (messagesFor order seq incoming) with
      | running messages | failed error => exact fun holds => False.elim holds
      | finished messages =>
          intro holds collected
          cases collected
          exact ⟨responses, Or.inr rfl, holds⟩
  | failed error =>
      cases eagerOver order [] (messagesFor order seq incoming) with
      | running messages | finished messages => exact fun holds => False.elim holds
      | failed error => exact fun _ collected => nomatch collected

theorem sendDumpLoop_failed {incoming : List Datagram}
    (wellFormed : ∀ data ∈ incoming, WellFormed order data) :
    (∃ error, sendDumpLoop order seq [] incoming = .failed error) ↔
      EndsInFailure order (messagesFor order seq incoming) ∨
        ¬ Uninterrupted order (messagesFor order seq incoming) := by
  rw [← eagerOver_failed order []]
  have holds := sendDumpLoop_holds order seq [] [] incoming wellFormed rfl
  revert holds
  cases sendDumpLoop order seq [] incoming <;>
    cases eagerOver order [] (messagesFor order seq incoming) <;>
    intro holds <;>
    first
      | exact False.elim holds
      | simp

theorem map_parseResponse {responses : List (List UInt8)}
    {messages : List Message} (holds : responses.map (readResponse order) = messages.map .ok) :
    responses.map (parseResponse fromNetlink order) = messages.map fromNetlink.parse := by
  have through : ∀ responses : List (List UInt8), responses.map (parseResponse fromNetlink order) =
        (responses.map (readResponse order)).map (·.bind fromNetlink.parse) := by
    intro responses
    rw [map_map]
    refine map_congr_left fun response _ => ?_
    rw [parseResponse, Function.comp]
    cases readResponse order response <;> rfl
  rw [through, holds, map_map]
  rfl

/-- Over well-formed datagrams, the loop of the eager dump and the polled
stream agree exactly when the dump ends in a kernel error, or is neither
interrupted nor interspersed with acknowledgements. -/
theorem sendDumpLoop_agrees_iff (order : ByteOrder) (seq : Nat)
    (incoming : List Datagram) (wellFormed : ∀ data ∈ incoming, WellFormed order data) (count : Nat)
    (enough : (messagesFor order seq incoming).length < count) :
    DumpsAgree fromNetlink order ((DumpStream.new τ seq).polls fromNetlink order count incoming)
        (sendDumpLoop order seq [] incoming) ↔
      EndsInFailure order (messagesFor order seq incoming) ∨
        (Uninterrupted order (messagesFor order seq incoming) ∧
          Unacknowledged order (messagesFor order seq incoming)) := by
  have bounded := streamOver_length_le fromNetlink order
    (DumpStream.new τ seq) (messagesFor order seq incoming)
  have polled := polls_eq fromNetlink order count (DumpStream.new τ seq) incoming wellFormed rfl (by
      refine Nat.lt_of_le_of_lt bounded ?_
      simpa [DumpStream.new] using enough)
  have errored := streamOver_errored fromNetlink order
    (DumpStream.new τ seq) (messagesFor order seq incoming) rfl
  rw [polled]
  change DumpsAgree fromNetlink order
      ((streamOver fromNetlink order (DumpStream.new τ seq)
          (messagesFor order seq incoming)).pending,
        (streamOver fromNetlink order (DumpStream.new τ seq)
          (messagesFor order seq incoming)).errored) _ ↔ _
  by_cases fails : EndsInFailure order (messagesFor order seq incoming)
  · obtain ⟨error, isFailed⟩ :=
      (@sendDumpLoop_failed order seq incoming wellFormed).mpr (Or.inl fails)
    simp [DumpsAgree, isFailed, errored, fails]
  · by_cases uninterrupted : Uninterrupted order (messagesFor order seq incoming)
    · obtain ⟨responses, ends, holds⟩ := sendDumpLoop_collected wellFormed fails uninterrupted
      have items := streamOver_pending fromNetlink order
        (DumpStream.new τ seq) (messagesFor order seq incoming) fails
      have notErrored :
          (streamOver fromNetlink order (DumpStream.new τ seq)
            (messagesFor order seq incoming)).errored = false := by
        simpa [fails] using errored
      have agree : DumpsAgree fromNetlink order
              ((streamOver fromNetlink order (DumpStream.new τ seq)
                  (messagesFor order seq incoming)).pending,
                (streamOver fromNetlink order (DumpStream.new τ seq)
                  (messagesFor order seq incoming)).errored)
              (sendDumpLoop order seq [] incoming) ↔
            ((beforeEnd order (messagesFor order seq incoming)).filter
                fun message => !isAck order message).map fromNetlink.parse =
              (beforeEnd order (messagesFor order seq incoming)).map
                fromNetlink.parse := by
        rw [← map_parseResponse fromNetlink holds, items, notErrored]
        rcases ends with isRunning | isFinished
        · simp [DumpsAgree, isRunning, DumpStream.new]
        · simp [DumpsAgree, isFinished, DumpStream.new]
      rw [agree]
      constructor
      · intro same
        have sameLength := congrArg List.length same
        rw [length_map, length_map] at sameLength
        exact Or.inr ⟨uninterrupted, (length_withoutAcks order _).mp sameLength⟩
      · rintro (failure | ⟨_, unacknowledged⟩)
        · exact absurd failure fails
        · rw [filter_eq_self.mpr]
          intro message member
          simpa [isAck] using unacknowledged message member
    · obtain ⟨error, isFailed⟩ :=
        (@sendDumpLoop_failed order seq incoming wellFormed).mpr (Or.inr uninterrupted)
      simp [DumpsAgree, isFailed, errored, fails, uninterrupted]

/-- The streaming dump agrees with the eager dump of either mode exactly when
the dump ends in a kernel error, or is neither interrupted nor interspersed
with acknowledgements. -/
theorem dumps_agree_iff (fromNetlink : FromNetlink τ) (order : ByteOrder) (seq : Nat)
    (incoming : List Datagram) (wellFormed : ∀ data ∈ incoming, WellFormed order data) (count : Nat)
    (enough : (messagesFor order seq incoming).length < count) :
    (DumpsAgree fromNetlink order ((DumpStream.new τ seq).polls fromNetlink order count incoming)
          (sendDumpMutex order seq incoming) ↔
        EndsInFailure order (messagesFor order seq incoming) ∨
          (Uninterrupted order (messagesFor order seq incoming) ∧
            Unacknowledged order (messagesFor order seq incoming))) ∧
      (DumpsAgree fromNetlink order ((DumpStream.new τ seq).polls fromNetlink order count incoming)
          (sendDumpDispatch order seq incoming) ↔
        EndsInFailure order (messagesFor order seq incoming) ∨
          (Uninterrupted order (messagesFor order seq incoming) ∧
            Unacknowledged order (messagesFor order seq incoming))) :=
  ⟨sendDumpLoop_agrees_iff fromNetlink order seq incoming wellFormed count enough,
    sendDumpLoop_agrees_iff fromNetlink order seq incoming wellFormed count enough⟩

def rawPayload : FromNetlink (List UInt8) where
  fromBytes := fun payload => .ok payload
  setMsgType := fun _ payload => payload

/-- A header alone, as a little-endian host sends it for request 1. -/
def bareMessage (msgType flags : Nat) : List UInt8 :=
  NlMsgHdr.asBytes .little
    { nlmsgLen := 16
      nlmsgType := msgType
      nlmsgFlags := flags
      nlmsgSeq := 1
      nlmsgPid := 0 }

/-- A dump of one message and its end is the same for both. -/
theorem dumps_agree_iff_plain : DumpsAgree rawPayload .little
      ((DumpStream.new _ 1).polls rawPayload .little 3
        [bareMessage 16 NLM_F_MULTI ++ bareMessage 3 NLM_F_MULTI])
      (sendDumpMutex .little 1 [bareMessage 16 NLM_F_MULTI ++ bareMessage 3 NLM_F_MULTI]) := by
  have wellFormed : ∀ data ∈ [bareMessage 16 NLM_F_MULTI ++ bareMessage 3 NLM_F_MULTI],
      WellFormed .little data := by
    unfold WellFormed
    decide
  refine ((dumps_agree_iff rawPayload .little 1 _ wellFormed 3 (by decide)).1).mpr (Or.inr ?_)
  unfold Uninterrupted Unacknowledged
  exact ⟨⟨by decide, by decide⟩, by decide⟩

/-- An interrupted dump fails eagerly, and the stream reports it complete. -/
theorem dumps_disagree_interrupted : WellFormed .little
        (bareMessage 16 NLM_F_DUMP_INTR ++ bareMessage 3 NLM_F_MULTI) ∧
      sendDumpMutex .little 1 [bareMessage 16 NLM_F_DUMP_INTR ++ bareMessage 3 NLM_F_MULTI] =
        .failed .dumpInterrupted ∧
      ¬ DumpsAgree rawPayload .little
        ((DumpStream.new _ 1).polls rawPayload .little 3
          [bareMessage 16 NLM_F_DUMP_INTR ++ bareMessage 3 NLM_F_MULTI])
        (sendDumpMutex .little 1
          [bareMessage 16 NLM_F_DUMP_INTR ++ bareMessage 3 NLM_F_MULTI]) := by
  have fails : sendDumpMutex .little 1
          [bareMessage 16 NLM_F_DUMP_INTR ++ bareMessage 3 NLM_F_MULTI] =
        .failed .dumpInterrupted := by
    decide
  have completes :
      ((DumpStream.new _ 1).polls rawPayload .little 3
        [bareMessage 16 NLM_F_DUMP_INTR ++ bareMessage 3 NLM_F_MULTI]).2 =
        false := by
    decide
  refine ⟨?_, fails, ?_⟩
  · unfold WellFormed
    decide
  · rw [fails, DumpsAgree, completes]
    decide

end Nlink.Netlink
