import Nlink.GenericFamily
import Nlink.NetlinkFrames
import Nlink.DispatcherSendAck

namespace Nlink.Generic

open Foundation Netlink List

/-!
# The calls of a generic connection

In mutex mode a call sends its request and receives from the socket itself.
`query_family` and `command` receive one datagram, `dump_command` receives until
its dump ends.  What they leave in the socket's queue stays there.
-/

/-- A connection: the counter of its seqs, the families it remembers, and the
socket's receive queue. -/
structure Connection where
  counter : Nat
  cache : HashMap String FamilyInfo
  queue : List Datagram

namespace Connection

def new (counter : Nat) : Connection where
  counter := counter
  cache := ∅
  queue := []

def nextSeq (conn : Connection) : Nat :=
  headSeq conn.counter

/-- A request is sent, and the kernel's answer is queued. -/
def send (conn : Connection) (answer : List Datagram) : Connection :=
  { conn with
    counter := (nextNonzeroSeq conn.counter).2
    queue := conn.queue ++ answer }

/-- `RecvSession::recv` in mutex mode: a datagram off the socket.  Without one
the call waits until it times out, and the queue is empty then. -/
def recv (conn : Connection) : Option (Except Error Datagram) × Connection :=
  match recvMsg conn.queue with
  | none => (none, { conn with queue := [] })
  | some (result, rest) => (some (result.mapError .netlink), { conn with queue := rest })

variable (order : ByteOrder)

/-- `query_family`. -/
def queryFamily (conn : Connection) (name : String) (answer : List Datagram) :
    Option (Except Error FamilyInfo) × Connection :=
  let (response, next) := (conn.send answer).recv
  (response.map fun response => do
      let data ← response
      parseFamilyResponse order data conn.nextSeq name,
    next)

/-- A family that was found is remembered. -/
def remember (conn : Connection) (name : String) : Option (Except Error FamilyInfo) → Connection
  | some (.ok info) => { conn with cache := conn.cache.insert name info }
  | _ => conn

/-- `get_family`: the cache first, then the kernel. -/
def getFamily (conn : Connection) (name : String) (answer : List Datagram) :
    Option (Except Error FamilyInfo) × Connection :=
  match conn.cache.lookup name with
  | some info => (some (.ok info), conn)
  | none =>
      let (result, next) := conn.queryFamily order name answer
      (result, next.remember name result)

/-- `clear_cache`. -/
def clearCache (conn : Connection) : Connection :=
  { conn with cache := ∅ }

end Connection

section Loops

variable (order : ByteOrder)

/-- The loop of `process_genl_response` over the messages of a datagram. -/
def checkMessages (seq : Nat) : List (Except Netlink.Error Message) → Except Error Unit
  | [] => .ok ()
  | .error error :: _ => .error (.netlink error)
  | .ok (header, payload) :: rest =>
      if header.nlmsgSeq ≠ seq then
        checkMessages seq rest
      else
        match checkError order header payload with
        | some error => .error (.netlink error)
        | none => checkMessages seq rest

/-- `process_genl_response`. -/
def processGenlResponse (data : List UInt8) (seq : Nat) : Except Error Unit :=
  checkMessages order seq (messageIter order data)

/-- The loop of `dump_command` over the messages of a datagram. -/
def dumpMessages (seq : Nat) : List (List UInt8) → List (Except Netlink.Error Message) →
      Progress (List (List UInt8))
  | responses, [] => .running responses
  | _, .error error :: _ => .failed error
  | responses, .ok (header, payload) :: rest =>
      if header.nlmsgSeq ≠ seq then
        dumpMessages seq responses rest
      else if header.isDumpInterrupted then
        .failed .dumpInterrupted
      else if header.isError then
        match checkError order header payload with
        | some error => .failed error
        | none => dumpMessages seq responses rest
      else if header.isDone then
        .finished responses
      else
        dumpMessages seq (responses ++ [payload]) rest

/-- The loop of `dump_command` over the datagrams that it receives. -/
def dumpDatagrams (seq : Nat) : List (List UInt8) → List Datagram → Progress (List (List UInt8))
  | responses, [] => .running responses
  | responses, data :: incoming =>
      match dumpMessages order seq responses (messageIter order data) with
      | .running responses => dumpDatagrams seq responses incoming
      | .finished responses => .finished responses
      | .failed error => .failed error

end Loops

namespace Connection

variable (order : ByteOrder)

/-- `command`; what it returns is the datagram that it received. -/
def command (conn : Connection) (answer : List Datagram) :
    Option (Except Error Datagram) × Connection :=
  let (response, next) := (conn.send answer).recv
  (response.map fun response => do
      let data ← response
      processGenlResponse order data conn.nextSeq
      return data,
    next)

/-- The outer loop of `dump_command`.  Every receive takes a datagram off the
queue, so one more than the queue's length is enough fuel. -/
def dumpLoop (seq : Nat) : Nat → List (List UInt8) → Connection →
      Option (Except Error (List (List UInt8))) × Connection
  | 0, _, conn => (none, conn)
  | fuel + 1, responses, conn =>
      match conn.recv with
      | (none, conn) => (none, conn)
      | (some (.error error), conn) => (some (.error error), conn)
      | (some (.ok data), conn) =>
          match dumpMessages order seq responses (messageIter order data) with
          | .running responses => dumpLoop seq fuel responses conn
          | .finished responses => (some (.ok responses), conn)
          | .failed error => (some (.error (.netlink error)), conn)

/-- `dump_command`. -/
def dumpCommand (conn : Connection) (answer : List Datagram) :
    Option (Except Error (List (List UInt8))) × Connection :=
  let sent := conn.send answer
  sent.dumpLoop order conn.nextSeq (sent.queue.length + 1) []

end Connection

/-!
## What the kernel answers

The kernel answers the requests of a socket in order.  It answers a command with
replies and then, in a datagram of its own, with an error message whose code is
zero for success.  It answers a dump with replies and then the dump's end, or
with an error message.  What it answers is queued until it is received.
-/

/-- A message with which a request is answered before the last one. -/
structure IsReply (seq : Nat) (frame : Frame) : Prop where
  own : frame.header.nlmsgSeq = seq
  notError : frame.header.isError = false
  notDone : frame.header.isDone = false

/-- The answer to a command: datagrams of replies, and the verdict. -/
structure Answer (order : ByteOrder) where
  seq : Nat
  replies : List (List Frame)
  ending : Frame
  verdict : NlMsgError
  repliesWhole : ∀ frames ∈ replies, frames ≠ []
  repliesOwn : ∀ frames ∈ replies, ∀ frame ∈ frames, IsReply seq frame
  endingOwn : ending.header.nlmsgSeq = seq
  endingError : ending.header.isError = true
  verdictRead : NlMsgError.fromBytes order ending.payload = .ok verdict

namespace Answer

variable {order : ByteOrder}

/-- The datagrams of an answer, by their messages. -/
def frames (answer : Answer order) : List (List Frame) :=
  answer.replies ++ [[answer.ending]]

def datagrams (answer : Answer order) : List Datagram :=
  answer.frames.map (datagram order)

/-- The kernel has done what the command asked for. -/
def Accepted (answer : Answer order) : Prop :=
  answer.verdict.isAck = true

instance (answer : Answer order) : Decidable answer.Accepted :=
  inferInstanceAs (Decidable (_ = true))

/-- The error that a rejected command is answered with. -/
def rejection (answer : Answer order) : Netlink.Error :=
  answer.verdict.intoError order answer.ending.payload

end Answer

/-- The last message of a dump: its end, or the error of a refused one. -/
inductive EndsDump (order : ByteOrder) (frame : Frame) : Option Netlink.Error → Prop
  | done (isDone : frame.header.isDone = true) : EndsDump order frame none
  | refused (verdict : NlMsgError) (isError : frame.header.isError = true)
      (verdictRead : NlMsgError.fromBytes order frame.payload = .ok verdict)
      (rejects : verdict.isAck = false) :
      EndsDump order frame (some (verdict.intoError order frame.payload))

/-- The answer to a dump: replies and the last message, in some datagrams, and
the error if the kernel refused the dump. -/
structure DumpAnswer (order : ByteOrder) where
  seq : Nat
  replies : List Frame
  ending : Frame
  refusal : Option Netlink.Error
  frames : List (List Frame)
  whole : ∀ datagram ∈ frames, datagram ≠ []
  split : frames.flatten = replies ++ [ending]
  repliesOwn : ∀ frame ∈ replies, IsReply seq frame
  endingOwn : ending.header.nlmsgSeq = seq
  ends : EndsDump order ending refusal

namespace DumpAnswer

variable {order : ByteOrder}

def datagrams (answer : DumpAnswer order) : List Datagram :=
  answer.frames.map (datagram order)

/-- The kernel says that the dump is inconsistent. -/
def Interrupted (answer : DumpAnswer order) : Prop :=
  ∃ frame ∈ answer.replies ++ [answer.ending], frame.header.isDumpInterrupted = true

instance (answer : DumpAnswer order) : Decidable answer.Interrupted :=
  inferInstanceAs (Decidable (∃ _ ∈ _, _))

/-- What the kernel answered: an inconsistent dump, the error of a refused one,
or the replies. -/
def outcome (answer : DumpAnswer order) : Except Netlink.Error (List (List UInt8)) :=
  if answer.Interrupted then
    .error .dumpInterrupted
  else
    match answer.refusal with
    | some error => .error error
    | none => .ok (answer.replies.map Frame.payload)

end DumpAnswer

/-- What the kernel answers for a family's name: the family that it knows, or
the code of an error. -/
abbrev Families : Type :=
  String → Except Nat Family

/-- The kernel answers for a name as its families say. -/
def AnswersFamily {order : ByteOrder} (families : Families) (name : String)
    (answer : Answer order) : Prop :=
  match families name with
  | .ok family =>
      answer.Accepted ∧ ∃ frame others more genlHeader, answer.replies = (frame :: others) :: more ∧
            List.length genlHeader = GENL_HDRLEN ∧
            frame.payload = genlHeader ++ encodeAll order (family.attrs order)
  | .error code => code ≠ 0 ∧ answer.verdict.errno = -code ∧ answer.replies = []

/-- The kernel's families and a connection to it. -/
structure State where
  families : Families
  conn : Connection

/-- What happens: the kernel's families change, or the connection is called and
the kernel answers. -/
inductive Event (order : ByteOrder) where
  | familiesChange (families : Families)
  | clearCache
  | getFamily (name : String) (answer : Answer order)
  | command (answer : Answer order)
  | dumpCommand (answer : DumpAnswer order)

namespace State

variable {order : ByteOrder}

/-- The state behind an event. -/
def next (state : State) : Event order → State
  | .familiesChange families => { state with families := families }
  | .clearCache => { state with conn := state.conn.clearCache }
  | .getFamily name answer =>
      { state with conn := (state.conn.getFamily order name answer.datagrams).2 }
  | .command answer => { state with conn := (state.conn.command order answer.datagrams).2 }
  | .dumpCommand answer => { state with conn := (state.conn.dumpCommand order answer.datagrams).2 }

/-- The events of a run, each with the state that it meets. -/
def visits : State → List (Event order) → List (State × Event order)
  | _, [] => []
  | state, event :: rest => (state, event) :: (state.next event).visits rest

/-- The kernel's answer carries the request's seq and says what the kernel
knows. -/
def Lawful (state : State) : Event order → Prop
  | .familiesChange _ | .clearCache => True
  | .getFamily name answer =>
      answer.seq = state.conn.nextSeq ∧ AnswersFamily state.families name answer
  | .command answer => answer.seq = state.conn.nextSeq
  | .dumpCommand answer => answer.seq = state.conn.nextSeq

/-- A call gets its own answer. -/
def GetsOwnAnswer (state : State) : Event order → Prop
  | .familiesChange _ | .clearCache => True
  | .getFamily name answer =>
      let result := (state.conn.getFamily order name answer.datagrams).1
      (∀ family, state.families name = .ok family → result = some (.ok family.info)) ∧
      ∀ asked, result = some (.error (.familyNotFound asked)) →
        asked = name ∧ state.families name = .error ENOENT
  | .command answer =>
      let result := (state.conn.command order answer.datagrams).1
      (answer.Accepted ∧ ∃ data ∈ answer.datagrams, result = some (.ok data)) ∨
      (¬ answer.Accepted ∧ result = some (.error (.netlink answer.rejection)))
  | .dumpCommand answer =>
      (state.conn.dumpCommand order answer.datagrams).1 = some (answer.outcome.mapError .netlink)

/-- No message that is queued carries the seq of the next request. -/
def NoneQueued (order : ByteOrder) (conn : Connection) : Prop :=
  ∀ data ∈ conn.queue, ∀ message ∈ okMessages order data, message.1.nlmsgSeq ≠ conn.nextSeq

/-- Datagrams that fit the first buffer of a receive. -/
def Small (datagrams : List Datagram) : Prop :=
  ∀ data ∈ datagrams, data.length ≤ RECV_INITIAL_CAPACITY

/-- When a call gets its own answer.  Nothing is left in the queue from earlier
calls, unless the family is in the cache or not known to the kernel, or the call
is a dump; a rejected command has no replies; and a family does not change in
the kernel while it is in the cache. -/
def Undisturbed (state : State) : Event order → Prop
  | .familiesChange families =>
      ∀ name, (state.conn.cache.lookup name).isSome = true → families name = state.families name
  | .clearCache => True
  | .getFamily name answer =>
      (state.conn.cache.lookup name).isSome = true ∨ Small answer.datagrams ∧
          (state.conn.queue = [] ∨ state.families name = .error ENOENT ∧
              NoneQueued order state.conn)
  | .command answer =>
      state.conn.queue = [] ∧ Small answer.datagrams ∧ (answer.Accepted ∨ answer.replies = [])
  | .dumpCommand answer => Small answer.datagrams ∧ NoneQueued order state.conn

end State

/-- A kernel's families and a new connection. -/
def start (families : Families) (counter : Nat) : State where
  families := families
  conn := .new counter

/-!
## What the calls make of the kernel's messages

The loops over messages pass over those of other requests and give the outcome
of an answer.  Over the socket, a query and a command read one datagram; a dump
reads up to its end.
-/

section Loops

variable (order : ByteOrder)

/-- Messages as the iterator yields them. -/
def yielded (frames : List Frame) : List (Except Netlink.Error Message) :=
  frames.map fun frame => .ok frame.message

def NoneCarries (seq : Nat) (frames : List Frame) : Prop :=
  ∀ frame ∈ frames, frame.header.nlmsgSeq ≠ seq

variable {seq : Nat} {frames : List Frame}

theorem familyFromMessages_of_noneCarries (none : NoneCarries seq frames) (name : String) :
    familyFromMessages order seq name (yielded frames) = .error (.familyNotFound name) := by
  induction frames with
  | nil => rfl
  | cons frame rest ih =>
      obtain ⟨other, restNone⟩ := forall_mem_cons.mp none
      rw [yielded, map_cons, Frame.message, familyFromMessages, if_pos other]
      exact ih restNone

theorem familyFromMessages_reply {frame : Frame} (reply : IsReply seq frame)
    {genlHeader : List UInt8} (headerLength : genlHeader.length = GENL_HDRLEN) {family : Family}
    (describes : frame.payload = genlHeader ++ encodeAll order (family.attrs order))
    (others : List Frame) (name : String) :
    familyFromMessages order seq name (yielded (frame :: others)) = .ok family.info := by
  have long : ¬ frame.payload.length < GENL_HDRLEN := by
    rw [describes, length_append, headerLength]
    omega
  rw [yielded, map_cons, Frame.message, familyFromMessages, if_neg (not_not.mpr reply.own),
    reply.notError, if_neg Bool.false_ne_true, reply.notDone, if_neg Bool.false_ne_true, if_neg
    long, describes, drop_left' headerLength]
  exact family.parseFamilyAttrs_attrs order

variable (answer : Answer order)

theorem familyFromMessages_rejection (rejected : ¬ answer.Accepted) (name : String) :
    familyFromMessages order answer.seq name (yielded [answer.ending]) =
      if answer.verdict.errno = -ENOENT then
        .error (.familyNotFound name)
      else
        .error (.netlink answer.rejection) := by
  have notAck : answer.verdict.isAck = false := Bool.eq_false_iff.mpr rejected
  rw [yielded, map_cons, Frame.message, familyFromMessages, if_neg (not_not.mpr
    answer.endingOwn), answer.endingError, if_pos rfl, answer.verdictRead]
  dsimp only
  rw [notAck, if_neg Bool.false_ne_true]
  rfl

theorem checkMessages_replies (replies : ∀ frame ∈ frames, IsReply seq frame) :
    checkMessages order seq (yielded frames) = .ok () := by
  induction frames with
  | nil => rfl
  | cons frame rest ih =>
      obtain ⟨reply, restReplies⟩ := forall_mem_cons.mp replies
      have noError : checkError order frame.header frame.payload = none := by
        rw [checkError, reply.notError]
        rfl
      rw [yielded, map_cons, Frame.message, checkMessages, if_neg (not_not.mpr reply.own), noError]
      exact ih restReplies

theorem checkError_ending :
    checkError order answer.ending.header answer.ending.payload =
      if answer.Accepted then none else some answer.rejection := by
  rw [checkError, answer.endingError, if_pos rfl, answer.verdictRead]
  rfl

theorem checkMessages_ending :
    checkMessages order answer.seq (yielded [answer.ending]) =
      if answer.Accepted then
        .ok ()
      else
        .error (.netlink answer.rejection) := by
  rw [yielded, map_cons, Frame.message, checkMessages,
    if_neg (not_not.mpr answer.endingOwn), checkError_ending]
  by_cases accepted : answer.Accepted
  · rw [if_pos accepted, if_pos accepted]
    rfl
  · rw [if_neg accepted, if_neg accepted]

theorem dumpMessages_append (seq : Nat) (responses : List (List UInt8))
    (first second : List Frame) :
    dumpMessages order seq responses (yielded (first ++ second)) =
      match dumpMessages order seq responses (yielded first) with
      | .running responses => dumpMessages order seq responses (yielded second)
      | .finished responses => .finished responses
      | .failed error => .failed error := by
  induction first generalizing responses with
  | nil => rfl
  | cons frame rest ih =>
      rw [cons_append, yielded, yielded, map_cons, map_cons,
        Frame.message, dumpMessages, dumpMessages]
      split
      · exact ih responses
      · split
        · rfl
        · split
          · cases checkError order frame.header frame.payload with
            | some error => rfl
            | none => exact ih responses
          · split
            · rfl
            · exact ih _

theorem dumpMessages_of_noneCarries (none : NoneCarries seq frames)
    (responses : List (List UInt8)) :
    dumpMessages order seq responses (yielded frames) = .running responses := by
  induction frames with
  | nil => rfl
  | cons frame rest ih =>
      obtain ⟨other, restNone⟩ := forall_mem_cons.mp none
      rw [yielded, map_cons, Frame.message, dumpMessages, if_pos other]
      exact ih restNone

theorem dumpMessages_replies (replies : ∀ frame ∈ frames, IsReply seq frame)
    (responses : List (List UInt8)) :
    dumpMessages order seq responses (yielded frames) =
      if ∃ frame ∈ frames, frame.header.isDumpInterrupted = true then
        .failed .dumpInterrupted
      else
        .running (responses ++ frames.map Frame.payload) := by
  induction frames generalizing responses with
  | nil => simp [yielded, dumpMessages]
  | cons frame rest ih =>
      obtain ⟨reply, restReplies⟩ := forall_mem_cons.mp replies
      rw [yielded, map_cons, Frame.message, dumpMessages, if_neg (not_not.mpr reply.own)]
      simp only [exists_mem_cons_iff]
      by_cases interrupted : frame.header.isDumpInterrupted = true
      · rw [if_pos interrupted, if_pos (Or.inl interrupted)]
      · rw [if_neg interrupted, reply.notError, if_neg Bool.false_ne_true,
          reply.notDone, if_neg Bool.false_ne_true]
        refine (ih restReplies _).trans ?_
        simp [interrupted]

theorem isError_of_isDone {header : NlMsgHdr} (isDone : header.isDone = true) :
    header.isError = false := by
  rw [NlMsgHdr.isDone, beq_iff_eq] at isDone
  rw [NlMsgHdr.isError, isDone]
  rfl

theorem dumpMessages_ending (answer : DumpAnswer order) (responses : List (List UInt8)) :
    dumpMessages order answer.seq responses (yielded [answer.ending]) =
      if answer.ending.header.isDumpInterrupted = true then
        .failed .dumpInterrupted
      else
        match answer.refusal with
        | some error => .failed error
        | none => .finished responses := by
  rw [yielded, map_cons, Frame.message, dumpMessages, if_neg (not_not.mpr answer.endingOwn)]
  by_cases interrupted : answer.ending.header.isDumpInterrupted = true
  · rw [if_pos interrupted, if_pos interrupted]
  · rw [if_neg interrupted, if_neg interrupted]
    have ends := answer.ends
    generalize answer.refusal = refusal at ends ⊢
    cases ends with
    | done isDone =>
        rw [isError_of_isDone isDone, if_neg Bool.false_ne_true, isDone]
        rfl
    | refused verdict isError verdictRead rejects =>
        rw [checkError, isError, if_pos rfl, if_pos rfl, verdictRead]
        dsimp only
        rw [rejects]
        rfl

theorem dumpDatagrams_frames (seq : Nat) (responses : List (List UInt8))
    (frames : List (List Frame)) :
    dumpDatagrams order seq responses (frames.map (datagram order)) =
      dumpMessages order seq responses (yielded frames.flatten) := by
  induction frames generalizing responses with
  | nil => rfl
  | cons first rest ih =>
      rw [map_cons, dumpDatagrams, flatten_cons,
        dumpMessages_append, messageIter_datagram, ← yielded]
      cases dumpMessages order seq responses (yielded first) with
      | running responses => exact ih responses
      | finished responses => rfl
      | failed error => rfl

theorem dumpMessages_answer (answer : DumpAnswer order) :
    dumpMessages order answer.seq [] (yielded (answer.replies ++ [answer.ending])) =
      match answer.outcome with
      | .ok responses => .finished responses
      | .error error => .failed error := by
  rw [dumpMessages_append, dumpMessages_replies order answer.repliesOwn, DumpAnswer.outcome]
  have isInterrupted : answer.Interrupted ↔
      (∃ frame ∈ answer.replies, frame.header.isDumpInterrupted = true) ∨
        answer.ending.header.isDumpInterrupted = true := by
    simp only [DumpAnswer.Interrupted, mem_append, mem_singleton,
      or_and_right, exists_or, exists_eq_left]
  by_cases inReplies : ∃ frame ∈ answer.replies, frame.header.isDumpInterrupted = true
  · rw [if_pos inReplies, if_pos (isInterrupted.mpr (Or.inl inReplies))]
  · rw [if_neg inReplies]
    refine (dumpMessages_ending order answer _).trans ?_
    by_cases inEnding : answer.ending.header.isDumpInterrupted = true
    · rw [if_pos inEnding, if_pos (isInterrupted.mpr (Or.inr inEnding))]
    · have consistent : ¬ answer.Interrupted := fun interrupted =>
        (isInterrupted.mp interrupted).elim inReplies inEnding
      rw [if_neg inEnding, if_neg consistent]
      cases answer.refusal <;> rfl

end Loops

namespace Connection

variable (order : ByteOrder)

variable {conn : Connection}

theorem recv_cons {data : Datagram} {rest : List Datagram} (queued : conn.queue = data :: rest)
    (small : data.length ≤ RECV_INITIAL_CAPACITY) :
    conn.recv = (some (.ok data), { conn with queue := rest }) := by
  rw [recv, queued, recvMsg, recvMsgFrom_cons, if_pos small, take_of_length_le small]
  rfl

theorem dumpLoop_result {queue : List Datagram} (small : State.Small queue)
    (queued : conn.queue = queue) (seq : Nat) {fuel : Nat} (enough : queue.length < fuel)
    (responses : List (List UInt8)) :
    (conn.dumpLoop order seq fuel responses).1 =
      match dumpDatagrams order seq responses queue with
      | .running _ => none
      | .finished responses => some (.ok responses)
      | .failed error => some (.error (.netlink error)) := by
  induction queue generalizing conn fuel responses with
  | nil =>
      obtain ⟨fuel, rfl⟩ := Nat.exists_eq_succ_of_ne_zero (Nat.ne_zero_of_lt enough)
      rw [dumpLoop, recv, queued]
      rfl
  | cons first rest ih =>
      obtain ⟨firstSmall, restSmall⟩ := forall_mem_cons.mp small
      obtain ⟨fuel, rfl⟩ := Nat.exists_eq_succ_of_ne_zero (Nat.ne_zero_of_lt enough)
      rw [dumpLoop, recv_cons queued firstSmall, dumpDatagrams]
      dsimp only
      cases dumpMessages order seq responses (messageIter order first) with
      | running responses => exact ih restSmall rfl (Nat.lt_of_succ_lt_succ enough) responses
      | finished responses => rfl
      | failed error => rfl

theorem dumpLoop_queue {frames : List (List Frame)}
    (small : State.Small (frames.map (datagram order)))
    (queued : conn.queue = frames.map (datagram order)) (seq fuel : Nat)
    (responses : List (List UInt8)) :
    ∃ rest, rest <:+ frames ∧ (conn.dumpLoop order seq fuel responses).2 =
        { conn with queue := rest.map (datagram order) } := by
  induction frames generalizing conn fuel responses with
  | nil =>
      refine ⟨[], suffix_rfl, ?_⟩
      cases fuel with
      | zero => rw [dumpLoop, ← queued]
      | succ fuel =>
          rw [dumpLoop, recv, queued]
          rfl
  | cons first rest ih =>
      obtain ⟨firstSmall, restSmall⟩ := forall_mem_cons.mp small
      cases fuel with
      | zero => exact ⟨first :: rest, suffix_rfl, by rw [dumpLoop, ← queued]⟩
      | succ fuel =>
          rw [dumpLoop, recv_cons queued firstSmall]
          dsimp only
          cases dumpMessages order seq responses
              (messageIter order (datagram order first)) with
          | running responses =>
              let after : Connection := { conn with queue := rest.map (datagram order) }
              have left : after.queue = rest.map (datagram order) := rfl
              obtain ⟨later, suffix, isLater⟩ := ih restSmall left fuel responses
              exact ⟨later, suffix.trans (suffix_cons first rest), isLater⟩
          | finished responses | failed error => exact ⟨rest, suffix_cons first rest, rfl⟩

variable {answer rest : List Datagram} {first : List Frame}

theorem queryFamily_first (queued : conn.queue ++ answer = datagram order first :: rest)
    (small : (datagram order first).length ≤ RECV_INITIAL_CAPACITY) (name : String) :
    conn.queryFamily order name answer =
      (some (familyFromMessages order conn.nextSeq name (yielded first)),
        { conn.send answer with queue := rest }) := by
  have sent : (conn.send answer).queue = datagram order first :: rest := queued
  rw [queryFamily, recv_cons sent small, yielded, ← messageIter_datagram]
  rfl

theorem command_first (queued : conn.queue ++ answer = datagram order first :: rest)
    (small : (datagram order first).length ≤ RECV_INITIAL_CAPACITY) :
    conn.command order answer =
      (some ((checkMessages order conn.nextSeq (yielded first)).map fun _ => datagram order first),
        { conn.send answer with queue := rest }) := by
  have sent : (conn.send answer).queue = datagram order first :: rest := queued
  rw [command, recv_cons sent small, yielded, ← messageIter_datagram]
  rfl

theorem getFamily_first {name : String} (notCached : conn.cache.lookup name = none)
    (queued : conn.queue ++ answer = datagram order first :: rest)
    (small : (datagram order first).length ≤ RECV_INITIAL_CAPACITY) :
    let result := familyFromMessages order conn.nextSeq name (yielded first)
    conn.getFamily order name answer =
      (some result, remember { conn.send answer with queue := rest } name (some result)) := by
  rw [getFamily, notCached]
  dsimp only
  rw [queryFamily_first order queued small]

end Connection

end Nlink.Generic
