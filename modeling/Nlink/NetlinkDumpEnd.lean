import Mathlib.Data.List.Flatten
import Nlink.DispatcherSendAck
import Nlink.Foundation.Scan
import Nlink.NetlinkDumpAgreement
import Nlink.NetlinkFrames
import Nlink.NetlinkIterators

namespace Nlink.Netlink

open Foundation Dispatcher List

/-!
# The other loops that receive a dump

Connections to conntrack and nftables collect their dumps with loops of their
own.  The loop of conntrack reads message headers by itself.  A connection in
dispatcher mode is sent the datagrams that the driver routes to it.
-/

/-- `send_dump`, by the connection's mode. -/
def sendDump (dispatcherMode : Bool) (order : ByteOrder) (seq : Nat)
    (incoming : List Datagram) : Progress (List (List UInt8)) :=
  if dispatcherMode then sendDumpDispatch order seq incoming else sendDumpMutex order seq incoming

theorem readResponse_bytes {order : ByteOrder} {response : List UInt8} {message : Message}
    (read : readResponse order response = .ok message) :
    response = message.1.asBytes order ++ message.2 := by
  rw [readResponse] at read
  cases isHeader : NlMsgHdr.fromBytes order response with
  | error error => simp [isHeader] at read
  | ok header =>
      rw [isHeader] at read
      cases read
      rw [NlMsgHdr.asBytes_of_fromBytes isHeader]
      exact (take_append_drop _ _).symm

theorem Progress.Holds.bytes {order : ByteOrder} {left right : Progress (List (List UInt8))}
    {messages : Progress (List Message)} (leftHolds : left.Holds order messages)
    (rightHolds : right.Holds order messages) : left = right := by
  have unique : ∀ {responses : List (List UInt8)} {messages : List Message},
      responses.map (readResponse order) = messages.map .ok →
        responses = messages.map fun message => message.1.asBytes order ++ message.2 := by
    intro responses messages same
    induction responses generalizing messages with
    | nil => rw [map_eq_nil_iff.mp same.symm, map_nil]
    | cons response rest ih =>
        cases messages with
        | nil => cases same
        | cons message later =>
            obtain ⟨read, restSame⟩ := List.cons.inj same
            rw [map_cons, ← readResponse_bytes read, ← ih restSame]
  cases left <;> cases right <;> cases messages <;>
    first
      | exact False.elim leftHolds
      | exact False.elim rightHolds
      | exact congrArg _ (leftHolds.trans rightHolds.symm)
      | exact congrArg _ ((unique leftHolds).trans (unique rightHolds).symm)

/-- Neither dump sees the messages of others, nor how messages share datagrams.
With the dispatcher this is about the datagrams that reach the request's
channel. -/
theorem dumps_ignore_others (fromNetlink : FromNetlink τ) (order : ByteOrder) (seq : Nat)
    {first second : List Datagram} (firstFormed : ∀ data ∈ first, WellFormed order data)
    (secondFormed : ∀ data ∈ second, WellFormed order data)
    (same : messagesFor order seq first = messagesFor order seq second) (count : Nat)
    (enough : (messagesFor order seq first).length < count) :
    (∀ dispatcherMode,
        sendDump dispatcherMode order seq first = sendDump dispatcherMode order seq second) ∧
      (DumpStream.new τ seq).polls fromNetlink order count first =
        (DumpStream.new τ seq).polls fromNetlink order count second := by
  have bounded := streamOver_length_le fromNetlink order (DumpStream.new τ seq)
    (messagesFor order seq first)
  have inTime : (streamRest fromNetlink order (DumpStream.new τ seq)
      (messagesFor order seq first)).pending.length < count :=
    Nat.lt_of_le_of_lt bounded (by simpa [DumpStream.new] using enough)
  constructor
  · have firstHolds := sendDumpLoop_holds order seq [] [] first firstFormed rfl
    have secondHolds := sendDumpLoop_holds order seq [] [] second secondFormed rfl
    rw [← same] at secondHolds
    rintro (_ | _) <;> exact firstHolds.bytes secondHolds
  · rw [polls_eq fromNetlink order count _ first firstFormed rfl inTime,
      polls_eq fromNetlink order count _ second secondFormed rfl (same ▸ inTime)]
    simp only [DumpStream.new, same]

def NFNL_SUBSYS_CTNETLINK : Nat := 1

/-- The loop of `get_conntrack_family` over what is left of one datagram. -/
def conntrackMessages (parseConntrack : List UInt8 → Option α) (order : ByteOrder) (seq : Nat) :
    Nat → List UInt8 → List α → Progress (List α)
  | 0, _, entries => .running entries
  | fuel + 1, data, entries =>
      if data.length < 16 then
        .running entries
      else
        let nlmsgLen := order.ofBytes (data.take 4)
        let nlmsgType := order.ofBytes ((data.drop 4).take 2)
        let nlmsgFlags := order.ofBytes ((data.drop 6).take 2)
        let nlmsgSeq := order.ofBytes ((data.drop 8).take 4)
        let rest := data.drop (nlmsgAlign nlmsgLen)
        if nlmsgLen < 16 ∨ data.length < nlmsgLen then
          .running entries
        else if nlmsgSeq ≠ seq then
          conntrackMessages parseConntrack order seq fuel rest entries
        else if nlmsgFlags &&& 0x10 ≠ 0 then
          .failed .dumpInterrupted
        else if nlmsgType = NlMsgType.DONE then
          .finished entries
        else if nlmsgType = NlMsgType.ERROR then
          let errno := (BitVec.ofNat 32 (order.ofBytes ((data.drop 16).take 4))).toInt
          if 20 ≤ nlmsgLen ∧ errno ≠ 0 then
            .failed (.kernel errno.natAbs none none)
          else
            conntrackMessages parseConntrack order seq fuel rest entries
        else if nlmsgType / 256 = NFNL_SUBSYS_CTNETLINK then
          match parseConntrack (data.take nlmsgLen) with
          | some entry => conntrackMessages parseConntrack order seq fuel rest (entries ++ [entry])
          | none => conntrackMessages parseConntrack order seq fuel rest entries
        else
          conntrackMessages parseConntrack order seq fuel rest entries

/-- `get_conntrack_family`: the datagrams come from its receive session. -/
def getConntrackFamily (parseConntrack : List UInt8 → Option α) (order : ByteOrder) (seq : Nat) :
    List α → List Datagram → Progress (List α)
  | entries, [] => .running entries
  | entries, data :: incoming =>
      match conntrackMessages parseConntrack order seq data.length data
          entries with
      | .running entries => getConntrackFamily parseConntrack order seq entries incoming
      | .finished entries => .finished entries
      | .failed error => .failed error

/-- The length of the header behind a netfilter message's. -/
def NFGENMSG_HDRLEN : Nat := 4

/-- The loop of `nft_dump` over the messages of one datagram. -/
def nftMessages (order : ByteOrder) (seq : Nat) :
    List (Nat × List UInt8) → List (Except Error Message) → Progress (List (Nat × List UInt8))
  | results, [] => .running results
  | _, .error error :: _ => .failed error
  | results, .ok (header, payload) :: rest =>
      if header.nlmsgSeq ≠ seq then
        nftMessages order seq results rest
      else if header.isError then
        match checkError order header payload with
        | some error => .failed error
        | none => nftMessages order seq results rest
      else if header.isDone then
        .finished results
      else if NFGENMSG_HDRLEN ≤ payload.length then
        nftMessages order seq (results ++ [((payload.headD 0).toNat, payload.drop NFGENMSG_HDRLEN)])
          rest
      else
        nftMessages order seq results rest

/-- `nft_dump`: the datagrams come from the socket. -/
def nftDump (order : ByteOrder) (seq : Nat) : List (Nat × List UInt8) → List Datagram →
      Progress (List (Nat × List UInt8))
  | results, [] => .running results
  | results, data :: incoming =>
      match nftMessages order seq results (messageIter order data) with
      | .running results => nftDump order seq results incoming
      | .finished results => .finished results
      | .failed error => .failed error

/-- What a connection receives for a request while datagrams arrive: all of
them, or those that the driver routes to the request. -/
inductive Receives (order : ByteOrder) (seq : Nat) : Bool → List Datagram → List Datagram → Prop
  | direct (arrived : List Datagram) : Receives order seq false arrived arrived
  | dispatched {arrived queue : List Datagram} (awaits : Awaits order seq arrived queue) :
      Receives order seq true arrived queue

/-- The stream yields items without an error and then ends. -/
inductive DumpStream.EndsWithoutError (fromNetlink : FromNetlink τ) (order : ByteOrder) :
    DumpStream τ → List Datagram → Prop
  | ended {stream next : DumpStream τ} {incoming later : List Datagram}
      (answer : stream.pollNext fromNetlink order incoming = (some none, next, later)) :
      EndsWithoutError fromNetlink order stream incoming
  | item {stream next : DumpStream τ} {incoming later : List Datagram} {item : τ}
      (answer : stream.pollNext fromNetlink order incoming = (some (some (.ok item)), next, later))
      (rest : EndsWithoutError fromNetlink order next later) :
      EndsWithoutError fromNetlink order stream incoming

/-!
## The receive loops over the messages of a dump

A dump has no error messages.  Over such messages the eager loops are one loop
that differs in whether it looks at the interrupted flag and in what it
collects, and the stream is a loop that an entry can fail that does not parse.
-/

/-- A message that is not an error of the request. -/
def Frame.NoError (seq : Nat) (frame : Frame) : Prop :=
  frame.header.nlmsgSeq = seq → frame.header.isError = false

/-- The end of the request's dump. -/
def Frame.Ends (seq : Nat) (frame : Frame) : Prop :=
  frame.header.nlmsgSeq = seq ∧ frame.header.isDone = true

/-- A message of the request's dump that says it is inconsistent. -/
def Frame.Interrupts (seq : Nat) (frame : Frame) : Prop :=
  frame.header.nlmsgSeq = seq ∧ frame.header.isDumpInterrupted = true

/-- An entry of the request's dump that does not parse. -/
def Frame.Unparsed (fromNetlink : FromNetlink τ) (seq : Nat) (frame : Frame) : Prop :=
  frame.header.nlmsgSeq = seq ∧ frame.header.isDone = false ∧
    (fromNetlink.parse frame.message).isOk = false

/-- How far a dump has come, as the state of a loop. -/
def Progress.scan : Progress α → Scan Error α
  | .running collected => .running collected
  | .finished collected => .finished collected
  | .failed error => .failed error

theorem Progress.finished_iff (progress : Progress α) :
    (∃ collected, progress = .finished collected) ↔
      ∃ collected, progress.scan = .finished collected := by
  cases progress <;> simp [Progress.scan]

/-- An eager loop, one message at a time. -/
def dumpStep (seq : Nat) (checksInterrupted : Bool) (collect : σ → Frame → σ)
    (state : σ) (frame : Frame) : Scan Error σ :=
  if frame.header.nlmsgSeq ≠ seq then
    .running state
  else if checksInterrupted && frame.header.isDumpInterrupted then
    .failed .dumpInterrupted
  else if frame.header.isDone then
    .finished state
  else
    .running (collect state frame)

theorem dumpStep_decides (seq : Nat) (checksInterrupted : Bool) (collect : σ → Frame → σ) :
    Scan.Decides (dumpStep seq checksInterrupted collect) (Frame.Ends seq)
      (fun frame => checksInterrupted = true ∧ frame.Interrupts seq) where
  onFailure := by
    rintro state frame ⟨checks, own, interrupted⟩
    exact ⟨.dumpInterrupted, by simp [dumpStep, own, checks, interrupted]⟩
  onEnd := by
    rintro state frame notFailed ⟨own, isDone⟩
    refine ⟨state, ?_⟩
    have consistent : (checksInterrupted && frame.header.isDumpInterrupted) = false := by
      rw [Bool.eq_false_iff]
      intro both
      rw [Bool.and_eq_true] at both
      exact notFailed ⟨both.1, own, both.2⟩
    simp [dumpStep, own, consistent, isDone]
  onOther := by
    intro state frame notFailed notEnd
    by_cases own : frame.header.nlmsgSeq = seq
    · refine ⟨collect state frame, ?_⟩
      have consistent : (checksInterrupted && frame.header.isDumpInterrupted) = false := by
        rw [Bool.eq_false_iff]
        intro both
        rw [Bool.and_eq_true] at both
        exact notFailed ⟨both.1, own, both.2⟩
      have notDone : frame.header.isDone = false :=
        Bool.eq_false_iff.mpr fun isDone => notEnd ⟨own, isDone⟩
      simp [dumpStep, own, consistent, notDone]
    · exact ⟨state, if_pos own⟩

variable (order : ByteOrder) (seq : Nat)

variable {frames : List Frame}

theorem collectFrames_scan (noErrors : ∀ frame ∈ frames, frame.NoError seq)
    (responses : List (List UInt8)) :
    (collectFrames order seq responses frames).scan = Scan.through
        (dumpStep seq true fun responses frame => responses ++ [frame.messageBytes order])
        responses frames := by
  induction frames generalizing responses with
  | nil => rfl
  | cons frame rest ih =>
      obtain ⟨noError, restNoErrors⟩ := forall_mem_cons.mp noErrors
      rw [collectFrames, Scan.through, dumpStep]
      by_cases own : frame.header.nlmsgSeq = seq
      · have notError : checkError order frame.header frame.payload = none := by
          rw [checkError, noError own]
          rfl
        rw [if_neg (not_not.mpr own), if_neg (not_not.mpr own), notError, Bool.true_and]
        cases frame.header.isDumpInterrupted with
        | true => rfl
        | false =>
            cases frame.header.isDone with
            | true => rfl
            | false => exact ih restNoErrors _
      · rw [if_pos own, if_pos own]
        exact ih restNoErrors responses

variable {datagrams : List (List Frame)}

theorem sendDump_scan (dispatcherMode : Bool)
    (noErrors : ∀ frame ∈ datagrams.flatten, frame.NoError seq) :
    (sendDump dispatcherMode order seq (datagrams.map (datagram order))).scan = Scan.through
        (dumpStep seq true fun responses frame => responses ++ [frame.messageBytes order])
        [] datagrams.flatten := by
  have same : sendDump dispatcherMode order seq (datagrams.map (datagram order)) =
        sendDumpLoop order seq [] (datagrams.map (datagram order)) := by
    cases dispatcherMode <;> rfl
  rw [same, sendDumpLoop_datagrams, collectFrames_scan order seq noErrors]

/-- What `nft_dump` keeps of a message. -/
def nftCollect (results : List (Nat × List UInt8)) (frame : Frame) : List (Nat × List UInt8) :=
  if NFGENMSG_HDRLEN ≤ frame.payload.length then
    results ++ [((frame.payload.headD 0).toNat, frame.payload.drop NFGENMSG_HDRLEN)]
  else
    results

theorem nftMessages_scan (noErrors : ∀ frame ∈ frames, frame.NoError seq)
    (results : List (Nat × List UInt8)) :
    (nftMessages order seq results (frames.map fun frame => .ok frame.message)).scan =
      Scan.through (dumpStep seq false nftCollect) results frames := by
  induction frames generalizing results with
  | nil => rfl
  | cons frame rest ih =>
      obtain ⟨noError, restNoErrors⟩ := forall_mem_cons.mp noErrors
      rw [map_cons, Frame.message, nftMessages, Scan.through, dumpStep]
      by_cases own : frame.header.nlmsgSeq = seq
      · rw [if_neg (not_not.mpr own), if_neg (not_not.mpr own), noError own, Bool.false_and, if_neg
          Bool.false_ne_true, if_neg Bool.false_ne_true]
        cases frame.header.isDone with
        | true => rfl
        | false =>
            rw [if_neg Bool.false_ne_true, if_neg Bool.false_ne_true, nftCollect]
            split <;> exact ih restNoErrors _
      · rw [if_pos own, if_pos own]
        exact ih restNoErrors results

theorem nftDump_scan (noErrors : ∀ frame ∈ datagrams.flatten, frame.NoError seq)
    (results : List (Nat × List UInt8)) :
    (nftDump order seq results (datagrams.map (datagram order))).scan =
      Scan.through (dumpStep seq false nftCollect) results datagrams.flatten := by
  induction datagrams generalizing results with
  | nil => rfl
  | cons frames datagrams ih =>
      rw [flatten_cons] at noErrors
      obtain ⟨framesNoErrors, laterNoErrors⟩ := forall_mem_append.mp noErrors
      rw [map_cons, nftDump, messageIter_datagram, flatten_cons,
        Scan.through_append, ← nftMessages_scan order seq framesNoErrors]
      cases nftMessages order seq results
          (frames.map fun frame => .ok frame.message) with
      | running results => exact ih laterNoErrors results
      | finished results => rfl
      | failed error => rfl

/-- What `get_conntrack_family` keeps of a message. -/
def conntrackCollect (parseConntrack : List UInt8 → Option α) (entries : List α)
    (frame : Frame) : List α :=
  if frame.header.nlmsgType / 256 = NFNL_SUBSYS_CTNETLINK then
    match parseConntrack (frame.messageBytes order) with
    | some entry => entries ++ [entry]
    | none => entries
  else
    entries

theorem Frame.header_fields (frame : Frame) (rest : List UInt8) :
    16 ≤ (frame.bytes order ++ rest).length ∧ order.ofBytes ((frame.bytes order ++ rest).take 4) =
        frame.header.nlmsgLen ∧
      order.ofBytes (((frame.bytes order ++ rest).drop 4).take 2) = frame.header.nlmsgType ∧
      order.ofBytes (((frame.bytes order ++ rest).drop 6).take 2) = frame.header.nlmsgFlags ∧
      order.ofBytes (((frame.bytes order ++ rest).drop 8).take 4) =
        frame.header.nlmsgSeq := by
  have read : NlMsgHdr.fromBytes order (frame.bytes order ++ rest) = .ok frame.header := by
    rw [bytes, messageBytes, List.append_assoc, List.append_assoc]
    exact frame.fromBytes_header order _
  rw [NlMsgHdr.fromBytes] at read
  split at read
  · cases read
  · rename_i long
    have header := Except.ok.inj read
    exact ⟨Nat.le_of_not_lt long, congrArg NlMsgHdr.nlmsgLen header, congrArg NlMsgHdr.nlmsgType
      header, congrArg NlMsgHdr.nlmsgFlags header, congrArg NlMsgHdr.nlmsgSeq header⟩

/-- The loop of `get_conntrack_family` over the messages of a datagram. -/
theorem conntrackMessages_scan (parseConntrack : List UInt8 → Option α)
    (noErrors : ∀ frame ∈ frames, frame.NoError seq) (fuel : Nat) (enough : frames.length ≤ fuel)
    (entries : List α) :
    (conntrackMessages parseConntrack order seq fuel (datagram order frames) entries).scan =
      Scan.through (dumpStep seq true (conntrackCollect order parseConntrack)) entries frames := by
  induction frames generalizing fuel entries with
  | nil => cases fuel <;> rfl
  | cons frame rest ih =>
      obtain ⟨noError, restNoErrors⟩ := forall_mem_cons.mp noErrors
      cases fuel with
      | zero => cases enough
      | succ fuel =>
          obtain ⟨long, isLen, isType, isFlags, isSeq⟩ :=
            frame.header_fields order (datagram order rest)
          have later := ih restNoErrors fuel (Nat.le_of_succ_le_succ enough)
          have behind : (frame.bytes order ++ datagram order rest).drop
                  (nlmsgAlign frame.header.nlmsgLen) =
                datagram order rest :=
            drop_left' (frame.bytes_length order)
          have front : (frame.bytes order ++ datagram order rest).take frame.header.nlmsgLen =
                frame.messageBytes order := by
            rw [Frame.bytes, List.append_assoc]
            exact take_left' (frame.messageBytes_length order)
          have whole :
              ¬ (frame.header.nlmsgLen < 16 ∨ (frame.bytes order ++ datagram order rest).length <
                  frame.header.nlmsgLen) := by
            have grows : frame.header.nlmsgLen ≤ nlmsgAlign frame.header.nlmsgLen :=
              le_nlaAlign frame.header.nlmsgLen
            have lenRight := frame.lenRight
            rw [NLMSG_HDRLEN] at lenRight
            rw [length_append, frame.bytes_length]
            omega
          rw [datagram_cons, conntrackMessages, if_neg (Nat.not_lt.mpr long)]
          simp only [isLen, isType, isFlags, isSeq, behind, front]
          rw [if_neg whole, Scan.through, dumpStep]
          by_cases own : frame.header.nlmsgSeq = seq
          · have notError : ¬ frame.header.nlmsgType = NlMsgType.ERROR := by
              have isError := noError own
              rw [NlMsgHdr.isError, beq_eq_false_iff_ne] at isError
              exact isError
            rw [if_neg (not_not.mpr own), if_neg (not_not.mpr own), Bool.true_and,
              NlMsgHdr.isDumpInterrupted, NLM_F_DUMP_INTR, NlMsgHdr.isDone]
            by_cases interrupted : frame.header.nlmsgFlags &&& 0x10 = 0
            · have consistent : (frame.header.nlmsgFlags &&& 0x10 != 0) = false := by
                rw [interrupted]
                rfl
              rw [if_neg (not_not.mpr interrupted), consistent, if_neg Bool.false_ne_true]
              by_cases isDone : frame.header.nlmsgType = NlMsgType.DONE
              · rw [if_pos isDone, if_pos (beq_iff_eq.mpr isDone)]
                rfl
              · rw [if_neg isDone, if_neg notError,
                  if_neg (mt beq_iff_eq.mp isDone), conntrackCollect]
                split
                · cases parseConntrack (frame.messageBytes order) with
                  | none => exact later entries
                  | some entry => exact later _
                · exact later entries
            · rw [if_pos interrupted, if_pos (bne_iff_ne.mpr interrupted)]
              rfl
          · rw [if_pos own, if_pos own]
            exact later entries

theorem getConntrackFamily_scan (parseConntrack : List UInt8 → Option α)
    (noErrors : ∀ frame ∈ datagrams.flatten, frame.NoError seq) (entries : List α) :
    (getConntrackFamily parseConntrack order seq entries (datagrams.map (datagram order))).scan =
      Scan.through (dumpStep seq true (conntrackCollect order parseConntrack))
        entries datagrams.flatten := by
  induction datagrams generalizing entries with
  | nil => rfl
  | cons frames datagrams ih =>
      rw [flatten_cons] at noErrors
      obtain ⟨framesNoErrors, laterNoErrors⟩ := forall_mem_append.mp noErrors
      rw [map_cons, getConntrackFamily, flatten_cons, Scan.through_append,
        ← conntrackMessages_scan order seq parseConntrack framesNoErrors _
          (length_le_datagram order frames)]
      cases conntrackMessages parseConntrack order seq
          (datagram order frames).length (datagram order frames) entries with
      | running entries => exact ih laterNoErrors entries
      | finished entries => rfl
      | failed error => rfl

/-- The stream, as a loop that an entry that does not parse fails unless such
entries are skipped. -/
def streamStep (fromNetlink : FromNetlink τ) (seq : Nat) (skipMalformed : Bool)
    (state : Unit) (frame : Frame) : Scan Error Unit :=
  if frame.header.nlmsgSeq ≠ seq then
    .running state
  else if frame.header.isDone then
    .finished state
  else
    match fromNetlink.parse frame.message with
    | .ok _ => .running state
    | .error error => if skipMalformed then .running state else .failed error

theorem streamStep_decides (fromNetlink : FromNetlink τ) (seq : Nat) (skipMalformed : Bool) :
    Scan.Decides (streamStep fromNetlink seq skipMalformed) (Frame.Ends seq)
      (fun frame =>
        skipMalformed = false ∧ frame.Unparsed fromNetlink seq) where
  onFailure := by
    rintro state frame ⟨keeps, own, notDone, unparsed⟩
    cases isParsed : fromNetlink.parse frame.message with
    | ok item =>
        rw [isParsed] at unparsed
        cases unparsed
    | error error => exact ⟨error, by simp [streamStep, own, notDone, isParsed, keeps]⟩
  onEnd := by
    rintro state frame _ ⟨own, isDone⟩
    exact ⟨state, by simp [streamStep, own, isDone]⟩
  onOther := by
    intro state frame notFailed notEnd
    refine ⟨state, ?_⟩
    by_cases own : frame.header.nlmsgSeq = seq
    · have notDone : frame.header.isDone = false :=
        Bool.eq_false_iff.mpr fun isDone => notEnd ⟨own, isDone⟩
      cases isParsed : fromNetlink.parse frame.message with
      | ok item => simp [streamStep, own, notDone, isParsed]
      | error error =>
          have skips : skipMalformed = true := by
            rw [← Bool.not_eq_false]
            intro keeps
            exact notFailed ⟨keeps, own, notDone, by rw [isParsed]; rfl⟩
          simp [streamStep, own, notDone, isParsed, skips]
    · exact if_pos own

/-!
## What ends a dump

The kernel ends a dump with a status: zero, or the error that its callback met
with the table half written.  No loop looks at the status.  An aborted dump
ends with an error only where something else makes the loop fail.
-/

namespace DumpStream

variable (fromNetlink : FromNetlink τ) (order : ByteOrder)

variable (stream : DumpStream τ)

theorem endsWithoutError_iff (incoming : List Datagram) :
    stream.EndsWithoutError fromNetlink order incoming ↔
      match stream.pollNext fromNetlink order incoming with
      | (some none, _, _) => True
      | (some (some (.ok _)), next, later) => next.EndsWithoutError fromNetlink order later
      | _ => False := by
  constructor
  · intro ends
    cases ends with
    | ended answer =>
        rw [answer]
        trivial
    | item answer rest =>
        rw [answer]
        exact rest
  · split
    · rename_i answer
      exact fun _ => .ended answer
    · rename_i answer
      exact .item answer
    · exact False.elim

theorem endsWithoutError_queued (incoming : List Datagram) :
    stream.EndsWithoutError fromNetlink order incoming ↔
      (∀ item ∈ stream.pending, item.isOk = true) ∧
        ({ stream with pending := [] } :
          DumpStream τ).EndsWithoutError fromNetlink order incoming := by
  obtain ⟨seq, pending, done, errored, skipMalformed⟩ := stream
  induction pending with
  | nil => simp
  | cons item rest ih =>
      rw [endsWithoutError_iff, forall_mem_cons]
      cases item with
      | ok item => simpa [pollNext, Except.isOk, Except.toBool] using ih
      | error error => simp [pollNext, Except.isOk, Except.toBool]

theorem pollNext_drain (data : Datagram) (incoming : List Datagram)
    (noneQueued : stream.pending = []) (notEnded : (stream.done || stream.errored) = false) :
    stream.pollNext fromNetlink order (data :: incoming) =
      (stream.drainIntoPending fromNetlink order data).pollNext fromNetlink order incoming := by
  rw [pollNext, noneQueued]
  simp only [notEnded, Bool.false_eq_true, if_false]
  rw [pollFrames, pollNext]

/-- What draining the messages of a datagram does, by how the loop ends. -/
def Drains (stream drained : DumpStream τ) : Scan Error Unit → Prop
  | .running _ =>
      ∃ items : List (Except Error τ), (∀ item ∈ items, item.isOk = true) ∧
        drained = { stream with pending := stream.pending ++ items }
  | .finished _ =>
      ∃ items : List (Except Error τ), (∀ item ∈ items, item.isOk = true) ∧ drained =
          { stream with
            pending := stream.pending ++ items
            done := true }
  | .failed _ => ∃ item ∈ drained.pending, item.isOk = false

/-- Draining only adds to the queue. -/
theorem drainMessages_queue (messages : List (Except Error Message)) :
    ∃ items, (stream.drainMessages fromNetlink order messages).pending =
      stream.pending ++ items := by
  induction messages generalizing stream with
  | nil => exact ⟨[], (List.append_nil _).symm⟩
  | cons message rest ih =>
      have same := ih stream
      have fused : ∀ error, ∃ items, (stream.fuse error).pending = stream.pending ++ items :=
        fun error => ⟨[.error error], rfl⟩
      have pushed : ∀ item, ∃ items, ((stream.pushBack item).drainMessages fromNetlink order
            rest).pending = stream.pending ++ items := by
        intro item
        obtain ⟨items, grown⟩ := ih (stream.pushBack item)
        refine ⟨item :: items, ?_⟩
        rw [grown, pushBack, List.append_assoc]
        rfl
      cases message with
      | error error =>
          rw [drainMessages]
          split
          · exact same
          · exact fused error
      | ok message =>
          obtain ⟨header, payload⟩ := message
          rw [drainMessages]
          split
          · exact same
          · split
            · split
              · split
                · exact same
                · exact fused _
              · split
                · exact same
                · exact fused _
            · split
              · exact ⟨[], (List.append_nil _).symm⟩
              · split
                · exact pushed _
                · split
                  · exact same
                  · exact pushed _

theorem Drains.ofPushBack {stream drained : DumpStream τ} {item : τ} {scan : Scan Error Unit}
    (drains : Drains (stream.pushBack (.ok item)) drained scan) : Drains stream drained scan := by
  cases scan with
  | running state | finished state =>
      obtain ⟨items, sound, rfl⟩ := drains
      exact ⟨.ok item :: items, forall_mem_cons.mpr ⟨rfl, sound⟩, by simp [pushBack]⟩
  | failed error => exact drains

theorem drains_frames {frames : List Frame}
    (noErrors : ∀ frame ∈ frames, frame.NoError stream.expectedSeq) :
    Drains stream
      (stream.drainMessages fromNetlink order (frames.map fun frame => .ok frame.message))
      (Scan.through (streamStep fromNetlink stream.expectedSeq stream.skipMalformed) ()
        frames) := by
  induction frames generalizing stream with
  | nil => exact ⟨[], forall_mem_nil _, by simp [drainMessages]⟩
  | cons frame rest ih =>
      obtain ⟨noError, restNoErrors⟩ := forall_mem_cons.mp noErrors
      have same := ih stream restNoErrors
      rw [map_cons, Frame.message, drainMessages, Scan.through, streamStep]
      by_cases own : frame.header.nlmsgSeq = stream.expectedSeq
      · rw [if_neg (not_not.mpr own), if_neg (not_not.mpr own), noError own,
          if_neg Bool.false_ne_true]
        cases frame.header.isDone with
        | true => exact ⟨[], forall_mem_nil _, by simp⟩
        | false =>
            rw [if_neg Bool.false_ne_true, if_neg Bool.false_ne_true, ← Frame.message]
            cases isParsed : fromNetlink.parse frame.message with
            | ok item => exact (ih (stream.pushBack (.ok item)) restNoErrors).ofPushBack
            | error error =>
                cases skips : stream.skipMalformed with
                | true =>
                    rw [skips] at same
                    exact same
                | false =>
                    obtain ⟨items, grown⟩ :=
                      drainMessages_queue fromNetlink order (stream.pushBack (.error error))
                        (rest.map fun frame => .ok frame.message)
                    exact ⟨.error error, by
                      simp only [Bool.false_eq_true, if_false]
                      rw [grown]
                      simp [pushBack], rfl⟩
      · rw [if_pos own, if_pos own]
        exact same

theorem endsWithoutError_iff_scan (noneQueued : stream.pending = [])
    (notEnded : (stream.done || stream.errored) = false) {datagrams : List (List Frame)}
    (noErrors : ∀ frame ∈ datagrams.flatten, frame.NoError stream.expectedSeq) :
    stream.EndsWithoutError fromNetlink order (datagrams.map (datagram order)) ↔ ∃ state,
        Scan.through (streamStep fromNetlink stream.expectedSeq stream.skipMalformed)
            () datagrams.flatten =
          .finished state := by
  induction datagrams generalizing stream with
  | nil =>
      rw [endsWithoutError_iff, pollNext, map_nil, noneQueued]
      simp [notEnded, pollFrames, Scan.through]
  | cons frames datagrams ih =>
      rw [flatten_cons] at noErrors
      obtain ⟨framesNoErrors, laterNoErrors⟩ := forall_mem_append.mp noErrors
      have drains := drains_frames fromNetlink order stream framesNoErrors
      rw [endsWithoutError_iff, map_cons, pollNext_drain fromNetlink order stream _ _
        noneQueued notEnded, ← endsWithoutError_iff, endsWithoutError_queued, drainIntoPending,
        messageIter_datagram, flatten_cons, Scan.through_append]
      revert drains
      cases Scan.through (streamStep fromNetlink stream.expectedSeq stream.skipMalformed) ()
          frames with
      | running state =>
          rintro ⟨items, sound, drained⟩
          have waiting : ({ stream with pending := [] } : DumpStream τ) =
              stream := by
            rw [← noneQueued]
          rw [drained, noneQueued, List.nil_append, waiting]
          exact (and_iff_right sound).trans (ih stream noneQueued notEnded laterNoErrors)
      | finished state =>
          rintro ⟨items, sound, drained⟩
          rw [drained, noneQueued, List.nil_append, endsWithoutError_iff]
          simpa [pollNext] using sound
      | failed error =>
          rintro ⟨item, member, isError⟩
          refine iff_of_false (fun ends => ?_) (by simp)
          rw [ends.1 item member] at isError
          cases isError

end DumpStream

/-- A dump as the kernel sends it.  The status is zero if the dump is complete,
or else a negative error number. -/
structure KernelDump (order : ByteOrder) where
  entries : List Frame
  done : Frame
  status : Int
  entriesSound : ∀ frame ∈ entries, frame.header.isError = false ∧ frame.header.isDone = false
  isDone : done.header.isDone = true
  statusWritten : 4 ≤ done.payload.length ∧
    (BitVec.ofNat 32 (order.ofBytes (done.payload.take 4))).toInt = status
  statusSign : status ≤ 0

variable {order : ByteOrder} {seq : Nat} {datagrams : List (List Frame)}

/-- The datagrams carry a dump: its entries and then its end, among messages
for other requests. -/
def KernelDump.Carried (dump : KernelDump order) (seq : Nat) (datagrams : List (List Frame)) :
    Prop :=
  (datagrams.flatten.filter fun frame => frame.header.nlmsgSeq = seq) = dump.entries ++ [dump.done]

/-- The datagrams that reach a request: all of them, or in dispatcher mode
those that begin with a message of the request. -/
def reaching (seq : Nat) (dispatcherMode : Bool) (datagrams : List (List Frame)) :
    List (List Frame) :=
  if dispatcherMode then
    datagrams.filter fun frames => frames.head?.map (fun frame => frame.header.nlmsgSeq) == some seq
  else
    datagrams

theorem routingSeq_datagram (order : ByteOrder) (frames : List Frame) :
    State.routingSeq order (datagram order frames) =
      frames.head?.map fun frame => frame.header.nlmsgSeq := by
  rw [State.routingSeq, messageIter_datagram]
  cases frames <;> rfl

theorem Receives.queue_eq {dispatcherMode : Bool} {queue : List Datagram}
    (receives : Receives order seq dispatcherMode (datagrams.map (datagram order)) queue) :
    queue = (reaching seq dispatcherMode datagrams).map (datagram order) := by
  cases receives with
  | direct arrived => rfl
  | dispatched awaits =>
      rw [awaits.queue_eq.2, routedTo, filter_map, reaching, if_pos rfl]
      simp only [Function.comp_def, routingSeq_datagram]

theorem reaching_sublist (seq : Nat) (dispatcherMode : Bool) (datagrams : List (List Frame)) :
    (reaching seq dispatcherMode datagrams).flatten.Sublist
      datagrams.flatten := by
  rw [reaching]
  split
  · exact List.Sublist.flatten filter_sublist
  · exact List.Sublist.refl _

namespace KernelDump

variable {dump : KernelDump order} (carried : dump.Carried seq datagrams)
include carried

theorem mem_of_own {frame : Frame} (member : frame ∈ datagrams.flatten)
    (own : frame.header.nlmsgSeq = seq) : frame ∈ dump.entries ∨ frame = dump.done := by
  have isDumps : frame ∈ dump.entries ++ [dump.done] := by
    rw [← carried]
    exact mem_filter.mpr ⟨member, decide_eq_true own⟩
  exact (mem_append.mp isDumps).imp_right mem_singleton.mp

theorem noErrors : ∀ frame ∈ datagrams.flatten, frame.NoError seq := by
  intro frame member own
  rcases mem_of_own carried member own with isEntry | rfl
  · exact (dump.entriesSound frame isEntry).1
  · have isDone := dump.isDone
    rw [NlMsgHdr.isDone, beq_iff_eq] at isDone
    rw [NlMsgHdr.isError, isDone]
    rfl

theorem endsLast :
    datagrams.flatten.Pairwise fun first later =>
      first.Ends seq → later.header.nlmsgSeq ≠ seq := by
  have among :
      (dump.entries ++ [dump.done]).Pairwise fun first _ =>
        first.header.isDone = false :=
    pairwise_append.mpr
      ⟨pairwise_of_forall_mem_list fun first member _ _ => (dump.entriesSound first member).2,
        pairwise_singleton _ _,
        fun first member _ _ => (dump.entriesSound first member).2⟩
  rw [← carried, pairwise_filter] at among
  refine among.imp fun {first later} notDone ends own => ?_
  have isDone := ends.2
  rw [notDone (decide_eq_true ends.1) (decide_eq_true own)] at isDone
  cases isDone

theorem endArrives : ∃ frame ∈ datagrams.flatten, frame.Ends seq := by
  have isDumps :
      dump.done ∈ datagrams.flatten.filter fun frame =>
        frame.header.nlmsgSeq = seq := by
    rw [carried]
    exact mem_append_right _ (mem_singleton_self _)
  obtain ⟨member, own⟩ := mem_filter.mp isDumps
  exact ⟨dump.done, member, of_decide_eq_true own, dump.isDone⟩

theorem scan_finishes_iff {step : σ → Frame → Scan Error σ} {fails : Frame → Prop}
    (decides : Scan.Decides step (Frame.Ends seq) fails)
    (ownFails : ∀ frame, fails frame → frame.header.nlmsgSeq = seq) (dispatcherMode : Bool)
    (state : σ) :
    (∃ result, Scan.through step state (reaching seq dispatcherMode datagrams).flatten =
          .finished result) ↔
      (∃ frame ∈ (reaching seq dispatcherMode datagrams).flatten, frame.Ends seq) ∧
        ∀ frame ∈ (reaching seq dispatcherMode datagrams).flatten, ¬ fails frame := by
  have last := (endsLast carried).sublist (reaching_sublist seq dispatcherMode datagrams)
  exact decides.finishes_iff
    (last.imp fun notOwn ends failed => notOwn ends (ownFails _ failed)) state

end KernelDump

/-- The end of the dump does not reach the request. -/
def EndMissed (seq : Nat) (dispatcherMode : Bool) (datagrams : List (List Frame)) :
    Prop :=
  ∀ frame ∈ (reaching seq dispatcherMode datagrams).flatten, ¬ frame.Ends seq

/-- A message that reaches the request says that the dump is inconsistent. -/
def Inconsistent (seq : Nat) (dispatcherMode : Bool) (datagrams : List (List Frame)) :
    Prop :=
  ∃ frame ∈ (reaching seq dispatcherMode datagrams).flatten, frame.Interrupts seq

/-- An entry that reaches the request does not parse. -/
def Unreadable (fromNetlink : FromNetlink τ) (seq : Nat) (dispatcherMode : Bool)
    (datagrams : List (List Frame)) : Prop :=
  ∃ frame ∈ (reaching seq dispatcherMode datagrams).flatten, frame.Unparsed fromNetlink seq

theorem only_if_complete_iff {finishes complete failed : Prop} {dispatcherMode : Bool}
    {fails : Frame → Prop}
    (iff : finishes ↔
      (∃ frame ∈ (reaching seq dispatcherMode datagrams).flatten, frame.Ends seq) ∧
        ∀ frame ∈ (reaching seq dispatcherMode datagrams).flatten, ¬ fails frame)
    (isFailed : failed ↔ ∃ frame ∈ (reaching seq dispatcherMode datagrams).flatten, fails frame) :
    (finishes → complete) ↔ complete ∨ EndMissed seq dispatcherMode datagrams ∨ failed := by
  have notFinished : ¬ finishes ↔ EndMissed seq dispatcherMode datagrams ∨ failed := by
    rw [iff, isFailed, not_and_or, EndMissed]
    simp only [not_exists, not_and, not_forall, not_not, exists_prop]
  rw [imp_iff_or_not, notFinished]

/-- A dump's loops end without an error only if the kernel's dump is complete
exactly under these conditions: a loop fails on something else than the status,
or the end does not reach it. -/
theorem ends_only_if_complete_iff (dump : KernelDump order) (carried : dump.Carried seq datagrams) :
    (∀ dispatcherMode queue, Receives order seq dispatcherMode (datagrams.map (datagram order))
          queue →
        (((∃ responses, sendDump dispatcherMode order seq queue =
                .finished responses) → dump.status = 0) ↔
            dump.status = 0 ∨ EndMissed seq dispatcherMode datagrams ∨
              Inconsistent seq dispatcherMode datagrams) ∧
          (∀ (τ : Type) (fromNetlink : FromNetlink τ) (skipMalformed : Bool),
            ({ DumpStream.new τ seq with
                skipMalformed := skipMalformed }.EndsWithoutError fromNetlink
                  order queue → dump.status = 0) ↔
              dump.status = 0 ∨ EndMissed seq dispatcherMode datagrams ∨
                (skipMalformed = false ∧ Unreadable fromNetlink seq dispatcherMode datagrams)) ∧
          ∀ (α : Type) (parseConntrack : List UInt8 → Option α),
            ((∃ entries, getConntrackFamily parseConntrack order seq [] queue =
                  .finished entries) → dump.status = 0) ↔
              dump.status = 0 ∨ EndMissed seq dispatcherMode datagrams ∨
                Inconsistent seq dispatcherMode datagrams) ∧
      (((∃ results, nftDump order seq [] (datagrams.map (datagram order)) =
              .finished results) → dump.status = 0) ↔
        dump.status = 0) := by
  have noErrors := KernelDump.noErrors carried
  constructor
  · intro dispatcherMode queue receives
    have reachedNoErrors : ∀ frame ∈ (reaching seq dispatcherMode datagrams).flatten,
          frame.NoError seq :=
      fun frame member =>
        noErrors frame ((reaching_sublist seq dispatcherMode datagrams).mem member)
    rw [receives.queue_eq]
    refine ⟨?_, fun τ fromNetlink skipMalformed => ?_, fun α parseConntrack => ?_⟩
    · rw [Progress.finished_iff, sendDump_scan order seq dispatcherMode reachedNoErrors]
      refine only_if_complete_iff (KernelDump.scan_finishes_iff carried (dumpStep_decides ..)
          (fun _ failed => failed.2.1) dispatcherMode []) ?_
      simp only [true_and, Inconsistent]
    · rw [DumpStream.endsWithoutError_iff_scan fromNetlink order _ rfl rfl reachedNoErrors]
      refine only_if_complete_iff (KernelDump.scan_finishes_iff carried (streamStep_decides ..)
          (fun _ failed => failed.2.1) dispatcherMode ()) ?_
      rw [Unreadable]
      constructor
      · rintro ⟨keeps, frame, member, unparsed⟩
        exact ⟨frame, member, keeps, unparsed⟩
      · rintro ⟨frame, member, keeps, unparsed⟩
        exact ⟨keeps, frame, member, unparsed⟩
    · rw [Progress.finished_iff, getConntrackFamily_scan order seq parseConntrack reachedNoErrors]
      refine only_if_complete_iff (KernelDump.scan_finishes_iff carried (dumpStep_decides ..)
          (fun _ failed => failed.2.1) dispatcherMode []) ?_
      simp only [true_and, Inconsistent]
  · have finishes :=
      (KernelDump.scan_finishes_iff carried (dumpStep_decides seq false nftCollect)
        (fun _ failed => failed.2.1) false []).mpr
        ⟨KernelDump.endArrives carried, fun _ _ failed => nomatch failed.1⟩
    have ends : ∃ results, nftDump order seq [] (datagrams.map (datagram order)) =
            .finished results := by
      rw [Progress.finished_iff, nftDump_scan order seq noErrors]
      exact finishes
    exact ⟨fun onlyIf => onlyIf ends, fun complete _ => complete⟩

/-- An entry of a dump of conntrack entries. -/
def entryFrame : Frame where
  header :=
    { nlmsgLen := 20
      nlmsgType := 256
      nlmsgFlags := NLM_F_MULTI
      nlmsgSeq := 7
      nlmsgPid := 0 }
  payload := [2, 0, 0, 0]
  lenRight := rfl
  lenFits := by decide
  typeFits := by decide
  flagsFit := by decide
  seqFits := by decide
  pidFits := by decide

/-- The end of a dump that was aborted with `ENOBUFS`. -/
def abortedFrame : Frame where
  header :=
    { nlmsgLen := 20
      nlmsgType := NlMsgType.DONE
      nlmsgFlags := NLM_F_MULTI
      nlmsgSeq := 7
      nlmsgPid := 0 }
  payload := [151, 255, 255, 255]
  lenRight := rfl
  lenFits := by decide
  typeFits := by decide
  flagsFit := by decide
  seqFits := by decide
  pidFits := by decide

/-- A message of another request in front changes nothing. -/
theorem dumps_ignore_others_inFront :
    (∀ dispatcherMode,
        sendDump dispatcherMode .little 7 [datagram .little [entryFrame]] =
          sendDump dispatcherMode .little 7
            [bareMessage 16 NLM_F_MULTI ++ datagram .little [entryFrame]]) ∧
      (DumpStream.new _ 7).polls rawPayload .little 2 [datagram .little [entryFrame]] =
        (DumpStream.new _ 7).polls rawPayload .little 2
          [bareMessage 16 NLM_F_MULTI ++ datagram .little [entryFrame]] :=
  dumps_ignore_others rawPayload .little 7 (by unfold WellFormed; decide)
    (by unfold WellFormed; decide) (by decide) 2 (by decide)

/-- A dump that was aborted behind its first entry. -/
def abortedDump : KernelDump .little where
  entries := [entryFrame]
  done := abortedFrame
  status := -105
  entriesSound := by decide
  isDone := by decide
  statusWritten := by decide
  statusSign := by decide

theorem carried_abortedDump : abortedDump.Carried 7 [[entryFrame], [abortedFrame]] := by
  rfl

/-- The conditions hold of the aborted dump. -/
theorem ends_only_if_complete_iff_aborted :
    ¬ ((∃ results, nftDump .little 7 [] ([[entryFrame], [abortedFrame]].map (datagram .little)) =
          .finished results) → abortedDump.status = 0) := by
  rw [(ends_only_if_complete_iff abortedDump carried_abortedDump).2]
  decide

/-- Every loop takes the aborted dump for a complete one. -/
theorem aborted_ends_without_error : abortedDump.Carried 7 [[entryFrame], [abortedFrame]] ∧
      abortedDump.status = -105 ∧
      (∀ dispatcherMode queue, Receives .little 7 dispatcherMode
            ([[entryFrame], [abortedFrame]].map (datagram .little)) queue →
          sendDump dispatcherMode .little 7 queue = .finished [entryFrame.messageBytes .little] ∧
            (DumpStream.new (List UInt8) 7).EndsWithoutError rawPayload .little queue ∧
            getConntrackFamily some .little 7 [] queue =
              .finished [entryFrame.messageBytes .little]) ∧
      nftDump .little 7 [] ([[entryFrame], [abortedFrame]].map (datagram .little)) =
        .finished [(2, [])] := by
  refine ⟨carried_abortedDump, rfl, fun dispatcherMode queue receives => ?_, by decide⟩
  have all : reaching 7 dispatcherMode [[entryFrame], [abortedFrame]] =
        [[entryFrame], [abortedFrame]] := by
    cases dispatcherMode <;> rfl
  rw [receives.queue_eq, all]
  refine ⟨?_, .item rfl (.ended rfl), by decide⟩
  cases dispatcherMode <;> decide

end Nlink.Netlink
