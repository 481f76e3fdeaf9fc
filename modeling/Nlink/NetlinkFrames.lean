import Nlink.NetlinkReply

namespace Nlink.Netlink

open Foundation List

/-!
# Datagrams of whole messages

The kernel puts whole messages into a datagram, each padded to a multiple of
four bytes.  The iterator yields them one by one, so the receive loops are
loops over messages, however the messages are split into datagrams.
-/

/-- A message that the kernel sends: its header's fields fit and its length is
right. -/
structure Frame where
  header : NlMsgHdr
  payload : List UInt8
  lenRight : header.nlmsgLen = NLMSG_HDRLEN + payload.length
  lenFits : header.nlmsgLen < 256 ^ 4
  typeFits : header.nlmsgType < 256 ^ 2
  flagsFit : header.nlmsgFlags < 256 ^ 2
  seqFits : header.nlmsgSeq < 256 ^ 4
  pidFits : header.nlmsgPid < 256 ^ 4

namespace Frame

def message (frame : Frame) : Message :=
  (frame.header, frame.payload)

variable (order : ByteOrder)

/-- The bytes of a message without padding. -/
def messageBytes (frame : Frame) : List UInt8 :=
  frame.header.asBytes order ++ frame.payload

def bytes (frame : Frame) : List UInt8 :=
  frame.messageBytes order ++
    List.replicate (nlmsgAlign frame.header.nlmsgLen - frame.header.nlmsgLen) 0

variable (frame : Frame)

theorem messageBytes_length : (frame.messageBytes order).length = frame.header.nlmsgLen := by
  rw [messageBytes, length_append, asBytes_length, frame.lenRight, NLMSG_HDRLEN]

theorem bytes_length : (frame.bytes order).length = nlmsgAlign frame.header.nlmsgLen := by
  have grows : frame.header.nlmsgLen ≤ nlmsgAlign frame.header.nlmsgLen :=
    le_nlaAlign frame.header.nlmsgLen
  rw [bytes, length_append, messageBytes_length, length_replicate]
  omega

theorem fromBytes_header (rest : List UInt8) :
    NlMsgHdr.fromBytes order (frame.header.asBytes order ++ rest) = .ok frame.header :=
  fromBytes_asBytes order frame.header rest frame.lenFits frame.typeFits
    frame.flagsFit frame.seqFits frame.pidFits

theorem nextMessage_bytes (rest : List UInt8) :
    nextMessage order (frame.bytes order ++ rest) = some (.ok frame.message, rest) := by
  have padded := frame.bytes_length order
  have unpadded := frame.messageBytes_length order
  have behind : (frame.bytes order ++ rest).drop (nlmsgAlign frame.header.nlmsgLen) =
        rest :=
    drop_left' padded
  have front : (frame.bytes order ++ rest).take frame.header.nlmsgLen =
        frame.messageBytes order := by
    rw [bytes, List.append_assoc]
    exact take_left' unpadded
  have body : (frame.messageBytes order).drop NLMSG_HDRLEN = frame.payload :=
    drop_left' (asBytes_length order frame.header)
  have header : NlMsgHdr.fromBytes order (frame.bytes order ++ rest) = .ok frame.header := by
    rw [bytes, messageBytes, List.append_assoc, List.append_assoc]
    exact frame.fromBytes_header order _
  have whole : frame.header.nlmsgLen ≤ (frame.bytes order ++ rest).length := by
    rw [length_append, bytes, length_append, unpadded]
    omega
  have lenRight := frame.lenRight
  rw [nextMessage, if_neg (by omega), header]
  refine (if_neg (by omega)).trans ?_
  rw [front, body, behind]
  rfl

theorem messageIter_messageBytes :
    messageIter order (frame.messageBytes order) = [.ok frame.message] := by
  have unpadded := frame.messageBytes_length order
  have lenRight := frame.lenRight
  have header : NlMsgHdr.fromBytes order (frame.messageBytes order) = .ok frame.header :=
    frame.fromBytes_header order frame.payload
  have body : (frame.messageBytes order).drop NLMSG_HDRLEN = frame.payload :=
    drop_left' (asBytes_length order frame.header)
  have first : nextMessage order (frame.messageBytes order) = some (.ok frame.message, []) := by
    have grows : frame.header.nlmsgLen ≤ nlmsgAlign frame.header.nlmsgLen :=
      le_nlaAlign frame.header.nlmsgLen
    rw [nextMessage, if_neg (by omega), header]
    refine (if_neg (by omega)).trans ?_
    rw [take_of_length_le (by omega), body, drop_of_length_le (by omega)]
    rfl
  obtain ⟨fuel, isSucc⟩ : ∃ fuel, (frame.messageBytes order).length = fuel + 1 :=
    Nat.exists_eq_succ_of_ne_zero (by rw [unpadded, lenRight]; simp [NLMSG_HDRLEN])
  rw [messageIter, isSucc, messagesFrom, first]
  cases fuel <;> rfl

end Frame

def datagram (order : ByteOrder) (frames : List Frame) : Datagram :=
  frames.flatMap (Frame.bytes order)

variable (order : ByteOrder)

theorem datagram_cons (frame : Frame) (frames : List Frame) :
    datagram order (frame :: frames) = frame.bytes order ++ datagram order frames :=
  flatMap_cons

theorem length_le_datagram (frames : List Frame) :
    frames.length ≤ (datagram order frames).length := by
  induction frames with
  | nil => exact Nat.le_refl 0
  | cons frame frames ih =>
      have grows : frame.header.nlmsgLen ≤ nlmsgAlign frame.header.nlmsgLen :=
        le_nlaAlign frame.header.nlmsgLen
      have lenRight := frame.lenRight
      rw [NLMSG_HDRLEN] at lenRight
      rw [datagram_cons, length_append, frame.bytes_length, length_cons]
      omega

theorem messagesFrom_datagram (frames : List Frame) (fuel : Nat) (enough : frames.length ≤ fuel) :
    messagesFrom order fuel (datagram order frames) =
      frames.map fun frame => .ok frame.message := by
  induction frames generalizing fuel with
  | nil => cases fuel <;> rfl
  | cons frame frames ih =>
      cases fuel with
      | zero => cases enough
      | succ fuel =>
          rw [datagram_cons, messagesFrom, frame.nextMessage_bytes]
          exact congrArg (List.cons _) (ih fuel (Nat.le_of_succ_le_succ enough))

/-- The messages of a datagram are read back. -/
theorem messageIter_datagram (frames : List Frame) :
    messageIter order (datagram order frames) = frames.map fun frame => .ok frame.message :=
  messagesFrom_datagram order frames _ (length_le_datagram order frames)

/-- The loop of `send_dump` over messages, with each message's bytes. -/
def collectFrames (order : ByteOrder) (seq : Nat) :
    List (List UInt8) → List Frame → Progress (List (List UInt8))
  | responses, [] => .running responses
  | responses, frame :: rest =>
      if frame.header.nlmsgSeq ≠ seq then
        collectFrames order seq responses rest
      else if frame.header.isDumpInterrupted then
        .failed .dumpInterrupted
      else
        match checkError order frame.header frame.payload with
        | some error => .failed error
        | none =>
            if frame.header.isDone then
              .finished responses
            else
              collectFrames order seq (responses ++ [frame.messageBytes order]) rest

theorem collectFrames_append (seq : Nat) (responses : List (List UInt8))
    (first second : List Frame) :
    collectFrames order seq responses (first ++ second) =
      match collectFrames order seq responses first with
      | .running responses => collectFrames order seq responses second
      | .finished responses => .finished responses
      | .failed error => .failed error := by
  induction first generalizing responses with
  | nil => rfl
  | cons frame rest ih =>
      rw [cons_append, collectFrames, collectFrames]
      split
      · exact ih responses
      · split
        · rfl
        · cases checkError order frame.header frame.payload with
          | some error => rfl
          | none =>
              simp only
              split
              · rfl
              · exact ih _

theorem collectMessages_datagram (seq : Nat) (data : List UInt8)
    (frames : List Frame) (msgStart : Nat) (responses : List (List UInt8))
    (here : data.drop msgStart = datagram order frames) :
    collectMessages order seq data msgStart responses (frames.map fun frame => .ok frame.message) =
      collectFrames order seq responses frames := by
  induction frames generalizing msgStart responses with
  | nil => rfl
  | cons frame rest ih =>
      rw [datagram_cons] at here
      have next : data.drop (msgStart + nlmsgAlign frame.header.nlmsgLen) =
            datagram order rest := by
        rw [← drop_drop, here]
        exact drop_left' (frame.bytes_length order)
      have slice : (data.drop msgStart).take frame.header.nlmsgLen = frame.messageBytes order := by
        rw [here, Frame.bytes, List.append_assoc]
        exact take_left' (frame.messageBytes_length order)
      have within : msgStart + frame.header.nlmsgLen ≤ data.length := by
        have rest := congrArg List.length slice
        have lenRight := frame.lenRight
        rw [frame.messageBytes_length, length_take, length_drop] at rest
        rw [NLMSG_HDRLEN] at lenRight
        omega
      rw [map_cons, Frame.message, collectMessages, collectFrames, slice, if_pos within]
      split
      · exact ih _ _ next
      · split
        · rfl
        · cases checkError order frame.header frame.payload with
          | some error => rfl
          | none =>
              simp only
              split
              · rfl
              · exact ih _ _ next

theorem sendDumpLoop_datagrams (seq : Nat) (responses : List (List UInt8))
    (datagrams : List (List Frame)) :
    sendDumpLoop order seq responses (datagrams.map (datagram order)) =
      collectFrames order seq responses datagrams.flatten := by
  induction datagrams generalizing responses with
  | nil => rfl
  | cons frames datagrams ih =>
      have first := collectMessages_datagram order seq
        (datagram order frames) frames 0 responses drop_zero
      rw [map_cons, sendDumpLoop, messageIter_datagram, first, flatten_cons, collectFrames_append]
      cases collectFrames order seq responses frames with
      | running responses => exact ih responses
      | finished responses => rfl
      | failed error => rfl

theorem collectFrames_filter (seq : Nat) (responses : List (List UInt8)) (frames : List Frame) :
    collectFrames order seq responses frames = collectFrames order seq responses
        (frames.filter fun frame => frame.header.nlmsgSeq = seq) := by
  induction frames generalizing responses with
  | nil => rfl
  | cons frame rest ih =>
      by_cases forRequest : frame.header.nlmsgSeq = seq
      · rw [filter_cons_of_pos (by simpa using forRequest), collectFrames, collectFrames]
        simp only [ih]
      · rw [filter_cons_of_neg (by simpa using forRequest), collectFrames, if_pos forRequest]
        exact ih responses

/-- A message of a dump that is neither an error nor its end. -/
structure Frame.IsEntry (frame : Frame) : Prop where
  notError : frame.header.isError = false
  notDone : frame.header.isDone = false
  consistent : frame.header.isDumpInterrupted = false

/-- The message that ends a dump. -/
structure Frame.IsEnd (frame : Frame) : Prop where
  isDone : frame.header.isDone = true
  consistent : frame.header.isDumpInterrupted = false

theorem zero_lt_word : 0 < 256 ^ 4 := by decide

theorem one_lt_word : 1 < 256 ^ 4 := by decide

theorem zero_lt_half : 0 < 256 ^ 2 := by decide

theorem minType_lt_half : 16 < 256 ^ 2 := by decide

/-- The end of a complete dump: its payload is a status of zero. -/
def doneFrame (seq : Nat) (seqFits : seq < 256 ^ 4) : Frame where
  header :=
    { nlmsgLen := 20
      nlmsgType := NlMsgType.DONE
      nlmsgFlags := NLM_F_MULTI
      nlmsgSeq := seq
      nlmsgPid := 0 }
  payload := [0, 0, 0, 0]
  lenRight := rfl
  lenFits := by simp
  typeFits := by simp [NlMsgType.DONE]
  flagsFit := by simp [NLM_F_MULTI]
  seqFits := seqFits
  pidFits := zero_lt_word

variable {seq : Nat}

theorem isEnd_doneFrame {seqFits : seq < 256 ^ 4} : (doneFrame seq seqFits).IsEnd where
  isDone := rfl
  consistent := by simp [doneFrame, NlMsgHdr.isDumpInterrupted, NLM_F_MULTI, NLM_F_DUMP_INTR]

/-- The datagrams carry a dump: its entries in order and then its end, among
messages for other requests. -/
structure CarriesDump (seq : Nat) (entries : List Frame) (datagrams : List (List Frame)) :
    Prop where
  entriesSound : ∀ frame ∈ entries, frame.IsEntry
  carried : ∃ done : Frame, done.IsEnd ∧
    (datagrams.flatten.filter fun frame => frame.header.nlmsgSeq = seq) = entries ++ [done]

variable {entries : List Frame}

theorem carriesDump_one (seqFits : seq < 256 ^ 4)
    (sound : ∀ frame ∈ entries, frame.IsEntry ∧ frame.header.nlmsgSeq = seq) :
    CarriesDump seq entries [entries ++ [doneFrame seq seqFits]] where
  entriesSound := fun frame member => (sound frame member).1
  carried :=
    ⟨doneFrame seq seqFits, isEnd_doneFrame, by
      rw [flatten_singleton, filter_eq_self]
      intro frame member
      rcases mem_append.mp member with isEntry | isDone
      · exact decide_eq_true (sound frame isEntry).2
      · rw [mem_singleton.mp isDone]
        exact decide_eq_true rfl⟩

theorem collectFrames_entries {order : ByteOrder}
    (sound : ∀ frame ∈ entries, frame.IsEntry ∧ frame.header.nlmsgSeq = seq)
    (responses : List (List UInt8)) :
    collectFrames order seq responses entries =
      .running (responses ++ entries.map (Frame.messageBytes order)) := by
  induction entries generalizing responses with
  | nil => exact congrArg Progress.running (List.append_nil _).symm
  | cons frame rest ih =>
      obtain ⟨⟨isEntry, forRequest⟩, restSound⟩ := forall_mem_cons.mp sound
      have later := ih restSound (responses ++ [frame.messageBytes order])
      simp [collectFrames, forRequest, isEntry.consistent, checkError,
        isEntry.notError, isEntry.notDone, later]

theorem sendDumpMutex_carries {order : ByteOrder} {datagrams : List (List Frame)}
    (carries : CarriesDump seq entries datagrams) :
    sendDumpMutex order seq (datagrams.map (datagram order)) =
      .finished (entries.map (Frame.messageBytes order)) := by
  obtain ⟨entriesSound, done, isEnd, carried⟩ := carries
  have forRequest : ∀ frame ∈ entries ++ [done], frame.header.nlmsgSeq = seq := by
    rw [← carried]
    intro frame member
    simpa using of_mem_filter member
  have sound : ∀ frame ∈ entries, frame.IsEntry ∧ frame.header.nlmsgSeq = seq := fun frame member =>
    ⟨entriesSound frame member, forRequest frame (mem_append_left _ member)⟩
  have notError : done.header.isError = false := by
    have isDone := isEnd.isDone
    rw [NlMsgHdr.isDone, beq_iff_eq] at isDone
    rw [NlMsgHdr.isError, isDone]
    rfl
  have ends : collectFrames order seq (entries.map (Frame.messageBytes order)) [done] =
        .finished (entries.map (Frame.messageBytes order)) := by
    simp [collectFrames, forRequest done (by simp), isEnd.consistent,
      checkError, notError, isEnd.isDone]
  rw [sendDumpMutex, sendDumpLoop_datagrams, collectFrames_filter, carried,
    collectFrames_append, collectFrames_entries sound, List.nil_append]
  exact ends

end Nlink.Netlink
