import Nlink.DispatcherSendAck

namespace Nlink.Netlink

open Foundation List

/-!
# Batches of requests

A batch collects the messages of its operations, each with a seq of its own.
Executing it sends the messages in chunks of a bounded size and collects the
results of a chunk by their seqs before the next chunk is sent.
-/

/-- The size from which a batch is split. -/
def MAX_BATCH_SIZE : Nat := 200 * 1024

namespace NlMsgType

def RTM_NEWLINK : Nat := 16
def RTM_DELLINK : Nat := 17
def RTM_NEWADDR : Nat := 20
def RTM_DELADDR : Nat := 21
def RTM_NEWROUTE : Nat := 24
def RTM_DELROUTE : Nat := 25
def RTM_NEWNEIGH : Nat := 28
def RTM_DELNEIGH : Nat := 29
def RTM_NEWQDISC : Nat := 36
def RTM_DELQDISC : Nat := 37

end NlMsgType

namespace TcaAttr

def Kind : Nat := 1
def Options : Nat := 2

end TcaAttr

/-- The parent of a root qdisc. -/
def tcHandle.ROOT : Nat := 0xFFFFFFFF

/-- The flags of a request that creates an object. -/
def addFlags : Nat :=
  NLM_F_REQUEST ||| NLM_F_ACK ||| NLM_F_CREATE ||| NLM_F_EXCL

/-- The flags of a request that deletes an object. -/
def deleteFlags : Nat :=
  NLM_F_REQUEST ||| NLM_F_ACK

/-- An `IfInfoMsg` with an index; its other fields are zero. -/
def ifInfoMsg (order : ByteOrder) (ifindex : Nat) : List UInt8 :=
  [0, 0] ++ order.toBytes 2 0 ++ order.toBytes 4 ifindex ++ order.toBytes 4 0 ++ order.toBytes 4 0

/-- A `TcMsg` for a qdisc. -/
def tcMsg (order : ByteOrder) (ifindex handle parent : Nat) : List UInt8 :=
  [0, 0] ++ order.toBytes 2 0 ++ order.toBytes 4 ifindex ++
    order.toBytes 4 handle ++ order.toBytes 4 parent ++ order.toBytes 4 0

/-!
## What operations write

The configurations of the objects are traits; a batch uses the methods that
write a message, with the interfaces already resolved.
-/

structure RouteConfig where
  writeAdd : MessageBuilder → MessageBuilder
  writeDelete : MessageBuilder → MessageBuilder

structure LinkConfig where
  writeTo : MessageBuilder → MessageBuilder

structure AddressConfig where
  writeAdd : MessageBuilder → Nat → Except Error MessageBuilder
  writeDelete : MessageBuilder → Nat → Except Error MessageBuilder

structure NeighborConfig where
  writeAdd : MessageBuilder → Nat → Except Error MessageBuilder
  writeDelete : MessageBuilder → Nat → Except Error MessageBuilder

structure FdbEntryBuilder where
  writeAdd : MessageBuilder → Nat → Option Nat → MessageBuilder
  writeDelete : MessageBuilder → Nat → MessageBuilder

structure QdiscConfig where
  kind : String
  defaultHandle : Option Nat
  writeOptions : MessageBuilder → Except Error MessageBuilder

/-- The builder methods of a batch. -/
inductive BatchCall where
  | addRoute (config : RouteConfig)
  | delRoute (config : RouteConfig)
  | addLink (config : LinkConfig)
  | delLinkByIndex (ifindex : Nat)
  | addAddress (config : AddressConfig) (ifindex : Nat)
  | delAddress (config : AddressConfig) (ifindex : Nat)
  | addNeighbor (config : NeighborConfig) (ifindex : Nat)
  | delNeighbor (config : NeighborConfig) (ifindex : Nat)
  | addFdb (entry : FdbEntryBuilder) (ifindex : Nat) (masterIdx : Option Nat)
  | delFdb (entry : FdbEntryBuilder) (ifindex : Nat)
  | addQdisc (ifindex : Nat) (config : QdiscConfig)
  | delQdisc (ifindex : Nat)

namespace BatchCall

variable (order : ByteOrder)

/-- What `add_qdisc` writes; the options are nested. -/
def buildQdisc (ifindex : Nat) (config : QdiscConfig) : Except Error MessageBuilder :=
  let builder :=
    ((MessageBuilder.new order NlMsgType.RTM_NEWQDISC
      (NLM_F_REQUEST ||| NLM_F_ACK ||| NLM_F_CREATE)).appendBytes
        (tcMsg order ifindex (config.defaultHandle.getD 0) tcHandle.ROOT))
  let builder := builder.appendAttrStr order TcaAttr.Kind config.kind
  match config.writeOptions (builder.nestStart order TcaAttr.Options) with
  | .ok written => .ok (written.nestEnd order builder.buf.length)
  | .error error => .error error

/-- The message that a builder method writes. -/
def build : BatchCall → Except Error MessageBuilder
  | addRoute config => .ok (config.writeAdd (.new order NlMsgType.RTM_NEWROUTE addFlags))
  | delRoute config => .ok (config.writeDelete (.new order NlMsgType.RTM_DELROUTE deleteFlags))
  | addLink config =>
      .ok
        (config.writeTo ((MessageBuilder.new order NlMsgType.RTM_NEWLINK
            addFlags).appendBytes (ifInfoMsg order 0)))
  | delLinkByIndex ifindex =>
      .ok
        ((MessageBuilder.new order NlMsgType.RTM_DELLINK
          deleteFlags).appendBytes (ifInfoMsg order ifindex))
  | addAddress config ifindex => config.writeAdd (.new order NlMsgType.RTM_NEWADDR addFlags) ifindex
  | delAddress config ifindex =>
      config.writeDelete (.new order NlMsgType.RTM_DELADDR deleteFlags) ifindex
  | addNeighbor config ifindex =>
      config.writeAdd (.new order NlMsgType.RTM_NEWNEIGH addFlags) ifindex
  | delNeighbor config ifindex =>
      config.writeDelete (.new order NlMsgType.RTM_DELNEIGH deleteFlags) ifindex
  | addFdb entry ifindex masterIdx =>
      .ok (entry.writeAdd (.new order NlMsgType.RTM_NEWNEIGH addFlags) ifindex masterIdx)
  | delFdb entry ifindex =>
      .ok (entry.writeDelete (.new order NlMsgType.RTM_DELNEIGH deleteFlags) ifindex)
  | addQdisc ifindex config => buildQdisc order ifindex config
  | delQdisc ifindex =>
      .ok
        ((MessageBuilder.new order NlMsgType.RTM_DELQDISC deleteFlags).appendBytes
            (tcMsg order ifindex 0 tcHandle.ROOT))

end BatchCall

/-!
## Building a batch
-/

structure BatchOp where
  seq : Nat
  msg : List UInt8

/-- A batch, with the counter and the port of its connection's socket. -/
structure Batch where
  seq : Nat
  pid : Nat
  ops : List BatchOp

namespace Batch

variable (order : ByteOrder)

/-- A batch without operations. -/
def new (seq pid : Nat) : Batch where
  seq := seq
  pid := pid
  ops := []

/-- The bytes of a message with its seq and its port. -/
def stamped (builder : MessageBuilder) (seq pid : Nat) : List UInt8 :=
  ((builder.setSeq order seq).setPid order pid).finish order

/-- `push`. -/
def push (batch : Batch) (builder : MessageBuilder) : Batch :=
  let (seq, next) := nextNonzeroSeq batch.seq
  { batch with
    seq := next
    ops := batch.ops ++ [{ seq := seq, msg := stamped order builder seq batch.pid }] }

/-- A builder method.  What cannot be written is not pushed. -/
def call (batch : Batch) (method : BatchCall) : Batch :=
  match method.build order with
  | .ok builder => batch.push order builder
  | .error _ => batch

/-- Other requests on the connection draw seqs of their own. -/
def others (batch : Batch) : Nat → Batch
  | 0 => batch
  | count + 1 => ({ batch with seq := (nextNonzeroSeq batch.seq).2 }).others count

/-- Calls of builder methods, each after some seqs that others have drawn. -/
def calls (batch : Batch) : List (Nat × BatchCall) → Batch
  | [] => batch
  | (count, method) :: rest => ((batch.others count).call order method).calls rest

/-!
## Executing a batch
-/

/-- The slices that `execute` sends; `chunk` is the one it is filling. -/
def chunksFrom : List BatchOp → Nat → List BatchOp → List (List BatchOp)
  | chunk, _, [] => if chunk.isEmpty then [] else [chunk]
  | chunk, chunkSize, op :: rest =>
      if chunkSize + op.msg.length > MAX_BATCH_SIZE ∧ chunkSize > 0 then
        chunk :: chunksFrom [op] op.msg.length rest
      else
        chunksFrom (chunk ++ [op]) (chunkSize + op.msg.length) rest

def chunks (ops : List BatchOp) : List (List BatchOp) :=
  chunksFrom [] 0 ops

/-- The results of a chunk that have arrived, by operation, and the number that
has not. -/
structure Collected where
  results : List (Option (Except Error Unit))
  remaining : Nat

/-- What a reply says about its operation. -/
def outcome (err : NlMsgError) (payload : List UInt8) : Except Error Unit :=
  if err.isAck then .ok () else .error (err.intoError order payload)

/-- The loop over the messages of a datagram. -/
def collect (ops : List BatchOp) : Collected → List (Except Error Message) → Except Error Collected
  | state, [] => .ok state
  | _, .error error :: _ => .error error
  | state, .ok (header, payload) :: rest =>
      match ops.findIdx? fun op => op.seq == header.nlmsgSeq with
      | none => collect ops state rest
      | some idx =>
          -- A duplicate of a reply that has arrived already.
          if (state.results.getD idx none).isSome then
            collect ops state rest
          else if header.isError then
            match NlMsgError.fromBytes order payload with
            | .error error => .error error
            | .ok err =>
                collect ops
                  { results := state.results.set idx (some (outcome order err payload))
                    remaining := state.remaining - 1 }
                  rest
          else
            collect ops state rest

/-- The loop over the datagrams that arrive; without a result it waits. -/
def recvResults (ops : List BatchOp) (state : Collected) : List Datagram →
      Option (Except Error (List (Option (Except Error Unit))))
  | [] => if state.remaining = 0 then some (.ok state.results) else none
  | data :: incoming =>
      if state.remaining = 0 then
        some (.ok state.results)
      else
        match collect order ops state (messageIter order data) with
        | .error error => some (.error error)
        | .ok state => recvResults ops state incoming

/-- `send_chunk`, given the datagrams that its receive session yields. -/
def sendChunk (ops : List BatchOp) (incoming : List Datagram) :
    Option (Except Error (List (Except Error Unit))) :=
  match recvResults order ops
      { results := ops.map fun _ => none
        remaining := ops.length }
      incoming with
  | none => none
  | some (.error error) => some (.error error)
  | some (.ok results) => some (.ok (results.map fun result => result.getD (.ok ())))

/-- Chunks are sent one after the other, given what arrives for each. -/
def sendChunks : List (List BatchOp) → List (List Datagram) →
      Option (Except Error (List (Except Error Unit)))
  | [], _ => some (.ok [])
  | chunk :: rest, incoming =>
      match sendChunk order chunk (incoming.headD []) with
      | some (.ok results) =>
          match sendChunks rest incoming.tail with
          | some (.ok others) => some (.ok (results ++ others))
          | failed => failed
      | failed => failed

/-- `execute`. -/
def execute (ops : List BatchOp) (incoming : List (List Datagram)) :
    Option (Except Error (List (Except Error Unit))) :=
  if ops.isEmpty then some (.ok []) else sendChunks order (chunks ops) incoming

/-!
## What the kernel replies
-/

/-- What a message says about the operation with a seq, if it is a reply to
it. -/
def replyTo (seq : Nat) (message : Message) : Option (Except Error Unit) :=
  if message.1.nlmsgSeq = seq ∧ message.1.isError = true then
    match NlMsgError.fromBytes order message.2 with
    | .ok err => some (outcome order err message.2)
    | .error _ => none
  else
    none

/-- What the first reply to the operation with a seq says. -/
def firstReply (seq : Nat) (messages : List Message) : Option (Except Error Unit) :=
  messages.findSome? (replyTo order seq)

/-- Every operation of a chunk is replied to, in any order, among messages with
other seqs. -/
structure Answered (chunk : List BatchOp) (incoming : List Datagram) : Prop where
  wellFormed : ∀ data ∈ incoming, WellFormed order data
  parses : ∀ message ∈ incoming.flatMap (okMessages order), message.1.isError = true →
      message.1.nlmsgSeq ∈ chunk.map BatchOp.seq →
        ∃ err, NlMsgError.fromBytes order message.2 = .ok err
  replied : ∀ op ∈ chunk,
    (firstReply order op.seq (incoming.flatMap (okMessages order))).isSome = true

/-- The operations in the order in which they are sent, each with what arrives
for its chunk. -/
def exchanges (chunks : List (List BatchOp)) (incoming : List (List Datagram)) :
    List (BatchOp × List Datagram) :=
  (chunks.zip incoming).flatMap fun (chunk, data) => chunk.map fun op => (op, data)

/-- An operation carries the message that a builder method writes. -/
def Adds (pid : Nat) (method : BatchCall) (op : BatchOp) : Prop :=
  ∃ builder, method.build order = .ok builder ∧ op.msg = stamped order builder op.seq pid

/-- For every answer of the kernel, the results line up with the calls of the
builder methods: the operations sent are those of the calls, in order, and each
result is the first reply to its operation. -/
structure LinesUp (seq pid : Nat) (methods : List (Nat × BatchCall)) : Prop where
  sent : List.Forall₂ (fun method op => Adds order pid method.2 op) methods
    (chunks ((new seq pid).calls order methods).ops).flatten
  bounded : ∀ chunk ∈ chunks ((new seq pid).calls order methods).ops,
    (chunk.map fun op => op.msg.length).sum ≤ MAX_BATCH_SIZE ∨ chunk.length = 1
  results : ∀ incoming, List.Forall₂ (Answered order)
        (chunks ((new seq pid).calls order methods).ops) incoming →
      ∃ results, execute order ((new seq pid).calls order methods).ops incoming =
            some (.ok results) ∧
          results.length = methods.length ∧
          List.Forall₂
            (fun exchange result =>
              firstReply order exchange.1.seq (exchange.2.flatMap (okMessages order)) = some result)
            (exchanges (chunks ((new seq pid).calls order methods).ops) incoming)
            results

end Batch

end Nlink.Netlink

namespace Nlink.Netlink.Batch

open Foundation List

/-!
## The results of a batch

The results of a chunk are the first replies to its operations among the
messages read so far, provided that the operations have seqs of their own.  An
operation whose seq an earlier one has never gets a result.
-/

variable {order : ByteOrder}

/-!
## The operations of a batch
-/

variable (batch : Batch)

theorem others_eq (count : Nat) : (batch.others count).pid = batch.pid ∧
      (batch.others count).ops = batch.ops := by
  induction count generalizing batch with
  | zero => exact ⟨rfl, rfl⟩
  | succ count ih => exact ih _

theorem calls_ops (methods : List (Nat × BatchCall))
    (written : ∀ method ∈ methods, ∃ builder, method.2.build order = .ok builder) :
    ∃ added, (batch.calls order methods).ops = batch.ops ++ added ∧
        List.Forall₂ (fun method op => Adds order batch.pid method.2 op) methods added := by
  induction methods generalizing batch with
  | nil => exact ⟨[], (List.append_nil _).symm, .nil⟩
  | cons first rest ih =>
      obtain ⟨builder, built⟩ := written first (mem_cons_self ..)
      obtain ⟨samePid, sameOps⟩ := others_eq batch first.1
      obtain ⟨added, isAdded, adds⟩ :=
        ih ((batch.others first.1).push order builder)
          fun method member => written method (mem_cons_of_mem _ member)
      have called : (batch.others first.1).call order first.2 =
            (batch.others first.1).push order builder := by
        rw [call, built]
      let seq := (nextNonzeroSeq (batch.others first.1).seq).1
      let op : BatchOp := { seq := seq, msg := stamped order builder seq batch.pid }
      refine ⟨op :: added, ?_, .cons ⟨builder, built, ?_⟩ ?_⟩
      · rw [calls, called, isAdded, push, sameOps, samePid, List.append_assoc]
        rfl
      · rfl
      · rw [push, samePid] at adds
        exact adds

theorem length_stamped (builder : MessageBuilder) (seq pid : Nat) :
    0 < (stamped order builder seq pid).length := by
  rw [stamped, MessageBuilder.finish, length_append, ByteOrder.toBytes_length]
  omega

theorem calls_nonempty (order : ByteOrder) (batch : Batch) (methods : List (Nat × BatchCall))
    (nonempty : ∀ op ∈ batch.ops, 0 < op.msg.length) :
    ∀ op ∈ (batch.calls order methods).ops, 0 < op.msg.length := by
  induction methods generalizing batch with
  | nil => exact nonempty
  | cons first rest ih =>
      refine ih _ ?_
      have sameOps := (others_eq batch first.1).2
      rw [call]
      split
      · rw [push, sameOps]
        intro op member
        rcases mem_append.mp member with old | new
        · exact nonempty op old
        · cases mem_singleton.mp new
          exact length_stamped _ _ _
      · rw [sameOps]
        exact nonempty

/-!
## The chunks
-/

def chunkSize (chunk : List BatchOp) : Nat :=
  (chunk.map fun op => op.msg.length).sum

theorem chunkSize_append (chunk : List BatchOp) (op : BatchOp) :
    chunkSize (chunk ++ [op]) = chunkSize chunk + op.msg.length := by
  simp [chunkSize]

theorem chunksFrom_flatten (chunk : List BatchOp) (size : Nat) (ops : List BatchOp) :
    (chunksFrom chunk size ops).flatten = chunk ++ ops := by
  induction ops generalizing chunk size with
  | nil =>
      cases chunk with
      | nil => rfl
      | cons op rest => simp [chunksFrom]
  | cons op rest ih =>
      rw [chunksFrom]
      split
      · rw [flatten_cons, ih]
        rfl
      · rw [ih, List.append_assoc]
        rfl

/-- A chunk within the limit, or of one operation. -/
def Bounded (chunk : List BatchOp) : Prop :=
  chunkSize chunk ≤ MAX_BATCH_SIZE ∨ chunk.length = 1

theorem chunksFrom_bounded (chunk : List BatchOp) (ops : List BatchOp)
    (filling : chunk = [] ∨ 0 < chunkSize chunk ∧ Bounded chunk)
    (nonempty : ∀ op ∈ ops, 0 < op.msg.length) :
    ∀ other ∈ chunksFrom chunk (chunkSize chunk) ops, Bounded other := by
  induction ops generalizing chunk with
  | nil =>
      intro other member
      rcases filling with rfl | ⟨positive, bounded⟩
      · cases member
      · rw [chunksFrom] at member
        split at member
        · cases member
        · cases mem_singleton.mp member
          exact bounded
  | cons op rest ih =>
      have opNonempty := nonempty op (mem_cons_self ..)
      have restNonempty : ∀ other ∈ rest, 0 < other.msg.length :=
        fun other member => nonempty other (mem_cons_of_mem _ member)
      intro other member
      rw [chunksFrom] at member
      split at member
      case isTrue full =>
        rcases mem_cons.mp member with rfl | later
        · rcases filling with rfl | ⟨positive, bounded⟩
          · exact absurd full.2 (by simp [chunkSize])
          · exact bounded
        · have single : chunkSize [op] = op.msg.length := by simp [chunkSize]
          refine ih [op] (Or.inr ?_) restNonempty other ?_
          · exact ⟨single ▸ opNonempty, Or.inr rfl⟩
          · rw [single]
            exact later
      case isFalse fits =>
        have size := chunkSize_append chunk op
        rw [← size] at member
        refine ih (chunk ++ [op]) (Or.inr ?_) restNonempty other member
        refine ⟨by omega, ?_⟩
        rcases filling with rfl | ⟨positive, bounded⟩
        · exact Or.inr rfl
        · refine Or.inl ?_
          rw [size]
          omega

/-!
## The replies to a chunk
-/

theorem firstReply_append (seq : Nat) (seen messages : List Message) :
    firstReply order seq (seen ++ messages) =
      (firstReply order seq seen).or (firstReply order seq messages) := by
  rw [firstReply, findSome?_append]
  rfl

theorem firstReply_snoc_of_none {seq : Nat} {message : Message}
    (noReply : replyTo order seq message = none) (seen : List Message) :
    firstReply order seq (seen ++ [message]) = firstReply order seq seen := by
  rw [firstReply_append, firstReply, firstReply, findSome?_singleton, noReply, Option.or_none]

theorem replyTo_of_ne {seq : Nat} {message : Message} (other : message.1.nlmsgSeq ≠ seq) :
    replyTo order seq message = none := by
  rw [replyTo, if_neg fun reply => other reply.1]

theorem set_firstReplies {ops : List BatchOp} (distinct : (ops.map BatchOp.seq).Nodup) {idx : Nat}
    {message : Message}
    (found : (ops.findIdx? fun op => op.seq == message.1.nlmsgSeq) = some idx)
    {reply : Except Error Unit} (replies : replyTo order message.1.nlmsgSeq message = some reply)
    {seen : List Message} (isNew : firstReply order message.1.nlmsgSeq seen = none) :
    (ops.map fun op => firstReply order op.seq seen).set idx (some reply) =
      ops.map fun op => firstReply order op.seq (seen ++ [message]) := by
  obtain ⟨inRange, isOp, _⟩ := findIdx?_eq_some_iff_getElem.mp found
  have sameSeq : ops[idx].seq = message.1.nlmsgSeq := eq_of_beq isOp
  apply ext_getElem
  · simp
  · intro place _ below
    rw [length_map] at below
    rw [getElem_set]
    split
    case isTrue here =>
      subst here
      rw [getElem_map, sameSeq, firstReply_append, isNew, firstReply, findSome?_singleton, replies]
      rfl
    case isFalse elsewhere =>
      have otherSeq : message.1.nlmsgSeq ≠ ops[place].seq := by
        intro same
        have idxBelow : idx < (ops.map BatchOp.seq).length := by simpa using inRange
        have placeBelow : place < (ops.map BatchOp.seq).length := by simpa using below
        have sameElement : (ops.map BatchOp.seq)[idx] = (ops.map BatchOp.seq)[place] := by
          rw [getElem_map, getElem_map, sameSeq, same]
        exact elsewhere (distinct.getElem_inj_iff.mp sameElement)
      rw [getElem_map, getElem_map, firstReply_snoc_of_none (replyTo_of_ne otherSeq)]

def missing (results : List (Option (Except Error Unit))) : Nat :=
  results.countP Option.isNone

theorem missing_set {results : List (Option (Except Error Unit))} {idx : Nat}
    (inRange : idx < results.length) (isMissing : (results.getD idx none).isSome = false)
    (reply : Except Error Unit) : missing (results.set idx (some reply)) = missing results - 1 := by
  have isNone : results[idx].isNone = true := by
    rw [getD_eq_getElem?_getD, getElem?_eq_getElem inRange] at isMissing
    simpa using isMissing
  rw [missing, countP_set inRange, isNone]
  simp [missing]

/-- What has been collected when these messages have been read. -/
def arrived (order : ByteOrder) (ops : List BatchOp) (seen : List Message) : Collected where
  results := ops.map fun op => firstReply order op.seq seen
  remaining := missing (ops.map fun op => firstReply order op.seq seen)

theorem arrived_snoc_of_none {ops : List BatchOp} {seen : List Message} {message : Message}
    (unchanged : ∀ op ∈ ops, firstReply order op.seq (seen ++ [message]) =
        firstReply order op.seq seen) :
    arrived order ops (seen ++ [message]) = arrived order ops seen := by
  have results : (ops.map fun op => firstReply order op.seq (seen ++ [message])) =
        ops.map fun op => firstReply order op.seq seen :=
    map_congr_left unchanged
  rw [arrived, arrived, results]

theorem arrived_getD (order : ByteOrder) {ops : List BatchOp} {idx seq : Nat}
    (inRange : idx < ops.length) (sameSeq : ops[idx].seq = seq) (seen : List Message) :
    (arrived order ops seen).results.getD idx none = firstReply order seq seen := by
  rw [arrived, getD_eq_getElem?_getD, getElem?_map, getElem?_eq_getElem inRange, ← sameSeq]
  rfl

theorem arrived_snoc_of_reply {ops : List BatchOp} (distinct : (ops.map BatchOp.seq).Nodup)
    {idx : Nat} {message : Message}
    (found : (ops.findIdx? fun op => op.seq == message.1.nlmsgSeq) = some idx)
    {reply : Except Error Unit} (replies : replyTo order message.1.nlmsgSeq message = some reply)
    {seen : List Message} (isNew : firstReply order message.1.nlmsgSeq seen = none) :
    arrived order ops (seen ++ [message]) =
      { results := (arrived order ops seen).results.set idx (some reply)
        remaining := (arrived order ops seen).remaining - 1 } := by
  obtain ⟨inRange, isOp, _⟩ := findIdx?_eq_some_iff_getElem.mp found
  have result := arrived_getD order inRange (eq_of_beq isOp) seen
  have inResults : idx < (arrived order ops seen).results.length := by simpa [arrived] using inRange
  have isMissing : ((arrived order ops seen).results.getD idx none).isSome = false := by
    rw [result, isNew]
    rfl
  have fewer := missing_set inResults isMissing reply
  have stored := set_firstReplies distinct found replies isNew
  rw [arrived, ← stored]
  exact congrArg (Collected.mk _) fewer

/-- The loop over a datagram collects the first replies. -/
theorem collect_arrived {ops : List BatchOp} (distinct : (ops.map BatchOp.seq).Nodup)
    (seen messages : List Message)
    (parses : ∀ message ∈ messages, message.1.isError = true →
      message.1.nlmsgSeq ∈ ops.map BatchOp.seq →
        ∃ err, NlMsgError.fromBytes order message.2 = .ok err) :
    collect order ops (arrived order ops seen) (messages.map .ok) =
      .ok (arrived order ops (seen ++ messages)) := by
  induction messages generalizing seen with
  | nil =>
      rw [List.append_nil]
      rfl
  | cons message rest ih =>
      have later := ih (seen ++ [message])
        fun other member => parses other (mem_cons_of_mem _ member)
      rw [List.append_assoc, singleton_append] at later
      rw [map_cons, collect]
      split
      case h_1 notFound =>
        have unchanged : ∀ op ∈ ops, firstReply order op.seq (seen ++ [message]) =
              firstReply order op.seq seen := by
          intro op member
          refine firstReply_snoc_of_none (replyTo_of_ne ?_) seen
          have differs := findIdx?_eq_none_iff.mp notFound op member
          exact fun same => by simp [same] at differs
        rw [← arrived_snoc_of_none unchanged, later]
      case h_2 idx found =>
        obtain ⟨inRange, isOp, _⟩ := findIdx?_eq_some_iff_getElem.mp found
        have sameSeq : ops[idx].seq = message.1.nlmsgSeq := eq_of_beq isOp
        rw [arrived_getD order inRange sameSeq seen]
        split
        case isTrue duplicate =>
          have unchanged : ∀ op ∈ ops, firstReply order op.seq (seen ++ [message]) =
                firstReply order op.seq seen := by
            intro op _
            by_cases same : message.1.nlmsgSeq = op.seq
            · rw [← same, firstReply_append, Option.or_of_isSome duplicate]
            · exact firstReply_snoc_of_none (replyTo_of_ne same) seen
          rw [← arrived_snoc_of_none unchanged, later]
        case isFalse isNew =>
          split
          case isTrue isError =>
            obtain ⟨err, parsed⟩ := parses message (mem_cons_self ..)
              isError (sameSeq ▸ mem_map_of_mem (getElem_mem _))
            have replies : replyTo order message.1.nlmsgSeq message =
                  some (outcome order err message.2) := by
              rw [replyTo, if_pos ⟨rfl, isError⟩, parsed]
            have stored := arrived_snoc_of_reply distinct found replies
              (Option.not_isSome_iff_eq_none.mp isNew)
            rw [parsed, ← later, stored]
          case isFalse noError =>
            have unchanged : ∀ op ∈ ops, firstReply order op.seq (seen ++ [message]) =
                  firstReply order op.seq seen := by
              intro op _
              refine firstReply_snoc_of_none ?_ seen
              rw [replyTo, if_neg fun reply => noError reply.2]
            rw [← arrived_snoc_of_none unchanged, later]

theorem arrived_remaining {ops : List BatchOp} {seen : List Message} :
    (arrived order ops seen).remaining = 0 ↔
      ∀ op ∈ ops, (firstReply order op.seq seen).isSome = true := by
  rw [arrived, missing, countP_eq_zero]
  constructor
  · intro noneMissing op member
    have isSome := noneMissing _ (mem_map_of_mem member)
    simpa [Option.isSome_iff_ne_none] using isSome
  · intro replied result member
    obtain ⟨op, isOp, rfl⟩ := mem_map.mp member
    have isSome := replied op isOp
    simpa [Option.isSome_iff_ne_none] using isSome

theorem arrived_complete {ops : List BatchOp} {seen : List Message}
    (complete : (arrived order ops seen).remaining = 0) (messages : List Message) :
    (arrived order ops seen).results =
      ops.map fun op => firstReply order op.seq (seen ++ messages) := by
  refine map_congr_left fun op member => ?_
  rw [firstReply_append, Option.or_of_isSome (arrived_remaining.mp complete op member)]

theorem recvResults_arrived {ops : List BatchOp} (distinct : (ops.map BatchOp.seq).Nodup)
    (incoming : List Datagram) (seen : List Message)
    (wellFormed : ∀ data ∈ incoming, WellFormed order data)
    (parses : ∀ message ∈ incoming.flatMap (okMessages order), message.1.isError = true →
        message.1.nlmsgSeq ∈ ops.map BatchOp.seq →
          ∃ err, NlMsgError.fromBytes order message.2 = .ok err)
    (replied : ∀ op ∈ ops,
      (firstReply order op.seq (seen ++ incoming.flatMap (okMessages order))).isSome = true) :
    recvResults order ops (arrived order ops seen) incoming = some
        (.ok (ops.map fun op =>
            firstReply order op.seq (seen ++ incoming.flatMap (okMessages order)))) := by
  induction incoming generalizing seen with
  | nil =>
      have complete : (arrived order ops seen).remaining = 0 := by
        rw [flatMap_nil, List.append_nil] at replied
        exact arrived_remaining.mpr replied
      rw [recvResults, if_pos complete, arrived_complete complete]
  | cons data rest ih =>
      by_cases complete : (arrived order ops seen).remaining = 0
      · rw [recvResults, if_pos complete, arrived_complete complete]
      · rw [flatMap_cons] at parses replied ⊢
        have collected :=
          collect_arrived distinct seen (okMessages order data)
            fun message member => parses message (mem_append_left _ member)
        rw [← List.append_assoc] at replied ⊢
        rw [recvResults, if_neg complete, messageIter_eq_map (wellFormed data (mem_cons_self
          ..)), collected]
        exact ih (seen ++ okMessages order data)
          (fun other member => wellFormed other (mem_cons_of_mem _ member))
          (fun message member => parses message (mem_append_right _ member))
          replied

theorem sendChunk_answered {ops : List BatchOp} (distinct : (ops.map BatchOp.seq).Nodup)
    {incoming : List Datagram} (answered : Answered order ops incoming) :
    ∃ results, sendChunk order ops incoming = some (.ok results) ∧ List.Forall₂
          (fun op result =>
            firstReply order op.seq (incoming.flatMap (okMessages order)) = some result)
          ops results := by
  have start :
      ({ results := ops.map fun _ => none, remaining := ops.length } : Collected) =
        arrived order ops [] := by
    refine congrArg (Collected.mk _) ?_
    simp [missing, firstReply, countP_replicate]
  have received :=
    recvResults_arrived distinct incoming [] answered.wellFormed answered.parses answered.replied
  rw [List.nil_append] at received
  refine ⟨_, by rw [sendChunk, start, received], ?_⟩
  rw [map_map, forall₂_map_right_iff, forall₂_same]
  intro op member
  obtain ⟨result, isResult⟩ := Option.isSome_iff_exists.mp (answered.replied op member)
  rw [Function.comp_apply, isResult]
  rfl

/-!
## Operations that share a seq
-/

/-- The loop over a datagram keeps count of the results that are missing, and
stores none for an operation that is not the first with its seq. -/
theorem collect_hidden {ops : List BatchOp} {place : Nat}
    (hidden : ∀ seq, (ops.findIdx? fun op => op.seq == seq) ≠ some place)
    (messages : List (Except Error Message)) {results : List (Option (Except Error Unit))}
    (sameLength : results.length = ops.length) {state : Collected}
    (collected : collect order ops ⟨results, missing results⟩ messages = .ok state) :
    state.remaining = missing state.results ∧ state.results.length = ops.length ∧
      state.results[place]? = results[place]? := by
  induction messages generalizing results with
  | nil =>
      rw [collect, Except.ok.injEq] at collected
      subst collected
      exact ⟨rfl, sameLength, rfl⟩
  | cons message rest ih =>
      cases message with
      | error error =>
          rw [collect] at collected
          cases collected
      | ok message =>
          rw [collect] at collected
          split at collected
          case h_1 => exact ih sameLength collected
          case h_2 idx found =>
            obtain ⟨inRange, _, _⟩ := findIdx?_eq_some_iff_getElem.mp found
            have elsewhere : idx ≠ place := by
              intro same
              exact hidden _ (same ▸ found)
            split at collected
            case isTrue => exact ih sameLength collected
            case isFalse isNew =>
              split at collected
              case isTrue =>
                split at collected
                case h_1 => cases collected
                case h_2 err _ =>
                  have fewer :=
                    missing_set (sameLength ▸ inRange) (Bool.not_eq_true _ ▸ isNew)
                      (outcome order err message.2)
                  rw [← fewer] at collected
                  have later := ih ((length_set ..).trans sameLength) collected
                  rw [getElem?_set_ne elsewhere] at later
                  exact later
              case isFalse => exact ih sameLength collected

theorem missing_pos {results : List (Option (Except Error Unit))} {place : Nat}
    (isMissing : results[place]? = some none) : 0 < missing results :=
  countP_pos_iff.mpr ⟨none, mem_of_getElem? isMissing, rfl⟩

theorem recvResults_hidden {ops : List BatchOp} {place : Nat}
    (hidden : ∀ seq, (ops.findIdx? fun op => op.seq == seq) ≠ some place) (incoming : List Datagram)
    {results : List (Option (Except Error Unit))} (sameLength : results.length = ops.length)
    (isMissing : results[place]? = some none) (returned : List (Option (Except Error Unit))) :
    recvResults order ops ⟨results, missing results⟩ incoming ≠ some (.ok returned) := by
  have notZero : missing results ≠ 0 := (missing_pos isMissing).ne'
  induction incoming generalizing results with
  | nil =>
      rw [recvResults, if_neg notZero]
      exact nofun
  | cons data rest ih =>
      rw [recvResults, if_neg notZero]
      split
      case h_1 => exact nofun
      case h_2 state collected =>
        obtain ⟨remaining, length, sameResult⟩ := collect_hidden hidden _ sameLength collected
        have stillMissing := sameResult.trans isMissing
        have later := ih length stillMissing (missing_pos stillMissing).ne'
        rw [← remaining] at later
        exact later

theorem sendChunk_shared {ops : List BatchOp} (shared : ¬ (ops.map BatchOp.seq).Nodup)
    (incoming : List Datagram) (returned : List (Except Error Unit)) :
    sendChunk order ops incoming ≠ some (.ok returned) := by
  rw [List.Nodup, pairwise_iff_getElem] at shared
  push Not at shared
  obtain ⟨first, second, _, inRange, before, same⟩ := shared
  rw [length_map] at inRange
  rw [getElem_map, getElem_map] at same
  have hidden : ∀ seq, (ops.findIdx? fun op => op.seq == seq) ≠ some second := by
    intro seq found
    obtain ⟨_, isOp, earlier⟩ := findIdx?_eq_some_iff_getElem.mp found
    refine earlier first before ?_
    rw [same]
    exact isOp
  intro sent
  rw [sendChunk] at sent
  split at sent
  case h_1 => cases sent
  case h_2 => cases sent
  case h_3 results received =>
    have allMissing : missing (ops.map fun _ => none) = ops.length := by
      simp [missing, countP_replicate]
    rw [← allMissing] at received
    exact recvResults_hidden hidden incoming (length_map ..) (by simp [inRange]) results received

/-!
## All chunks
-/

theorem execute_eq (ops : List BatchOp) (incoming : List (List Datagram)) :
    execute order ops incoming = sendChunks order (chunks ops) incoming := by
  cases ops with
  | nil => rfl
  | cons op rest => rfl

theorem exchanges_length {chunks : List (List BatchOp)} {incoming : List (List Datagram)}
    (sameLength : chunks.length = incoming.length) :
    (exchanges chunks incoming).length = chunks.flatten.length := by
  have firsts : (chunks.zip incoming).map Prod.fst = chunks := map_fst_zip (Nat.le_of_eq sameLength)
  rw [exchanges, length_flatMap, List.length_flatten]
  nth_rewrite 2 [← firsts]
  rw [map_map]
  congr 1
  exact map_congr_left fun exchange _ => length_map _

theorem sendChunks_answered {chunks : List (List BatchOp)} {incoming : List (List Datagram)}
    (distinct : ∀ chunk ∈ chunks, (chunk.map BatchOp.seq).Nodup)
    (answered : List.Forall₂ (Answered order) chunks incoming) :
    ∃ results, sendChunks order chunks incoming = some (.ok results) ∧ List.Forall₂
          (fun exchange result =>
            firstReply order exchange.1.seq (exchange.2.flatMap (okMessages order)) = some result)
          (exchanges chunks incoming) results := by
  induction answered with
  | nil => exact ⟨[], rfl, .nil⟩
  | cons first rest ih =>
      obtain ⟨results, sent, replies⟩ := sendChunk_answered (distinct _ (mem_cons_self ..)) first
      obtain ⟨others, sentLater, laterReplies⟩ :=
        ih fun chunk member => distinct chunk (mem_cons_of_mem _ member)
      refine ⟨results ++ others, ?_, ?_⟩
      · rw [sendChunks, headD_cons, sent, tail_cons, sentLater]
      · rw [exchanges, zip_cons_cons, flatMap_cons]
        exact rel_append (forall₂_map_left_iff.mpr replies) laterReplies

theorem distinct_of_sendChunks {chunks : List (List BatchOp)} {incoming : List (List Datagram)}
    {results : List (Except Error Unit)}
    (sent : sendChunks order chunks incoming = some (.ok results)) :
    ∀ chunk ∈ chunks, (chunk.map BatchOp.seq).Nodup := by
  induction chunks generalizing incoming results with
  | nil =>
      intro chunk member
      cases member
  | cons first rest ih =>
      rw [sendChunks] at sent
      split at sent
      case h_2 notSent => exact absurd sent (notSent results)
      case h_1 firstResults firstSent =>
        split at sent
        case h_2 notSent => exact absurd sent (notSent results)
        case h_1 others othersSent =>
          intro chunk member
          rcases mem_cons.mp member with rfl | later
          · by_contra shared
            exact sendChunk_shared shared _ firstResults firstSent
          · exact ih othersSent chunk later

/-!
## The kernel can answer
-/

/-- What arrives if the kernel acknowledges each operation of a chunk. -/
def acknowledged (order : ByteOrder) (chunk : List BatchOp) : List Datagram :=
  chunk.map fun op => replyDatagram order 0 op.seq

theorem replyTo_replyMessage (order : ByteOrder) {seq : Nat} (fits : seq < 2 ^ 32) :
    replyTo order seq (replyMessage order 0 seq) = some (.ok ()) := by
  rw [replyTo, if_pos ⟨rfl, rfl⟩, replyMessage, fromBytes_replyPayload order (by decide) fits]
  rfl

theorem answered_acknowledged (order : ByteOrder) {chunk : List BatchOp}
    (fits : ∀ op ∈ chunk, op.seq < 2 ^ 32) : Answered order chunk (acknowledged order chunk) := by
  have isReply : ∀ message ∈ (acknowledged order chunk).flatMap (okMessages order),
      ∃ op ∈ chunk, message = replyMessage order 0 op.seq := by
    intro message member
    obtain ⟨data, isData, isMessage⟩ := mem_flatMap.mp member
    obtain ⟨op, isOp, rfl⟩ := mem_map.mp isData
    rw [okMessages_replyDatagram order 0 (fits op isOp), mem_singleton] at isMessage
    exact ⟨op, isOp, isMessage⟩
  refine ⟨?_, ?_, ?_⟩
  · intro data member result isResult
    obtain ⟨op, isOp, rfl⟩ := mem_map.mp member
    rw [messageIter_replyDatagram order 0 (fits op isOp), mem_singleton] at isResult
    rw [isResult]
    rfl
  · intro message member _ _
    obtain ⟨op, isOp, rfl⟩ := isReply message member
    exact ⟨_, fromBytes_replyPayload order (by decide) (fits op isOp)⟩
  · intro op isOp
    rw [firstReply, findSome?_isSome_iff]
    refine ⟨replyMessage order 0 op.seq, ?_, ?_⟩
    · refine mem_flatMap.mpr ⟨_, mem_map_of_mem isOp, ?_⟩
      rw [okMessages_replyDatagram order 0 (fits op isOp)]
      exact mem_singleton_self _
    · rw [replyTo_replyMessage order (fits op isOp)]
      rfl

theorem others_fits (count : Nat) (fits : batch.seq < 2 ^ 32) :
    (batch.others count).seq < 2 ^ 32 := by
  induction count generalizing batch with
  | zero => exact fits
  | succ count ih => exact ih _ (nextNonzeroSeq_spec fits).1

theorem calls_fits (order : ByteOrder) (batch : Batch) (methods : List (Nat × BatchCall))
    (counter : batch.seq < 2 ^ 32) (fits : ∀ op ∈ batch.ops, op.seq < 2 ^ 32) :
    ∀ op ∈ (batch.calls order methods).ops, op.seq < 2 ^ 32 := by
  induction methods generalizing batch with
  | nil => exact fits
  | cons first rest ih =>
      have sameOps := (others_eq batch first.1).2
      have counterFits := others_fits batch first.1 counter
      rw [calls, call]
      split
      case h_2 =>
        refine ih _ counterFits ?_
        rw [sameOps]
        exact fits
      case h_1 builder _ =>
        refine ih _ (nextNonzeroSeq_spec counterFits).1 ?_
        rw [push, sameOps]
        intro op member
        rcases mem_append.mp member with old | new
        · exact fits op old
        · cases mem_singleton.mp new
          have inCycle := headSeq_le counterFits
          rw [headSeq, seqPeriod] at inCycle
          exact Nat.lt_of_le_of_lt inCycle (by decide)

/-- For every answer of the kernel the results line up with the calls, if and
only if every call can write its message and the operations that are sent
together have seqs of their own. -/
theorem linesUp_iff (order : ByteOrder) (seq pid : Nat) (fits : seq < 2 ^ 32)
    (methods : List (Nat × BatchCall)) :
    LinesUp order seq pid methods ↔
      (∀ method ∈ methods, ∃ builder, method.2.build order = .ok builder) ∧
        ∀ chunk ∈ chunks ((new seq pid).calls order methods).ops,
          (chunk.map BatchOp.seq).Nodup := by
  constructor
  · intro linesUp
    constructor
    · intro method member
      obtain ⟨place, inRange, rfl⟩ := mem_iff_getElem.mp member
      obtain ⟨sameLength, adds⟩ := forall₂_iff_get.mp linesUp.sent
      obtain ⟨builder, built, _⟩ := adds place inRange (sameLength ▸ inRange)
      exact ⟨builder, built⟩
    · have seqFits := calls_fits order (new seq pid) methods fits nofun
      have answered : List.Forall₂ (Answered order) (chunks ((new seq pid).calls order methods).ops)
            ((chunks ((new seq pid).calls order methods).ops).map (acknowledged order)) := by
        rw [forall₂_map_right_iff, forall₂_same]
        intro chunk member
        refine answered_acknowledged order fun op isOp => seqFits op ?_
        have inChunks := mem_flatten.mpr ⟨chunk, member, isOp⟩
        rw [chunks, chunksFrom_flatten, List.nil_append] at inChunks
        exact inChunks
      obtain ⟨results, executed, _, _⟩ := linesUp.results _ answered
      rw [execute_eq] at executed
      exact distinct_of_sendChunks executed
  · rintro ⟨written, distinct⟩
    obtain ⟨added, isAdded, adds⟩ := calls_ops (new seq pid) methods written
    have flattened : (chunks ((new seq pid).calls order methods).ops).flatten = added := by
      rw [chunks, chunksFrom_flatten, isAdded]
      rfl
    refine ⟨flattened ▸ adds, ?_, ?_⟩
    · have nonempty := calls_nonempty order (new seq pid) methods nofun
      exact chunksFrom_bounded [] _ (Or.inl rfl) nonempty
    · intro incoming answered
      obtain ⟨results, sent, replies⟩ := sendChunks_answered distinct answered
      refine ⟨results, execute_eq _ _ ▸ sent, ?_, replies⟩
      rw [← replies.length_eq, exchanges_length answered.length_eq, flattened, adds.length_eq]

/-- Two calls that can both write their messages. -/
theorem linesUp_iff_two : LinesUp .little 1 0 [(0, .delLinkByIndex 5), (0, .delQdisc 5)] := by
  refine (linesUp_iff .little 1 0 (by decide) _).mpr ⟨?_, ?_⟩
  · intro method member
    rcases mem_pair.mp member with rfl | rfl
    · exact ⟨_, rfl⟩
    · exact ⟨_, rfl⟩
  · decide

/-- `NetemConfig` with a reorder probability and no delay. -/
def netemReorderWithoutDelay : QdiscConfig where
  kind := "netem"
  defaultHandle := none
  writeOptions := fun _ => .error (.invalidMessage "netem: reorder requires delay to be set")

/-- A qdisc whose options cannot be written, and then a link: the only result
is the reply about the link, in the place of the result of the qdisc. -/
theorem execute_shifts :
    let methods := [(0, .addQdisc 5 netemReorderWithoutDelay), (0, .delLinkByIndex 5)]
    (∃ op, ((new 1 0).calls .little methods).ops = [op] ∧ op.seq = 1 ∧
        Adds .little 0 (.delLinkByIndex 5) op) ∧
      execute .little ((new 1 0).calls .little methods).ops
        [[replyDatagram .little 0 1]] = some (.ok [.ok ()]) ∧
      ¬ LinesUp .little 1 0 methods := by
  intro methods
  refine ⟨⟨_, rfl, rfl, _, rfl, rfl⟩, rfl, ?_⟩
  intro linesUp
  have sameLength := linesUp.sent.length_eq
  rw [chunks, chunksFrom_flatten] at sameLength
  cases sameLength

end Nlink.Netlink.Batch
