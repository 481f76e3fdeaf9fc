import Nlink.DispatcherSendAck
import Nlink.NftablesDiff

namespace Nlink.Nftables

open Foundation Netlink
open List hiding set

/-!
# Applying a diff

A diff is applied as one batch, built up operation by operation: first the
deletions, from rules to tables, then the additions, from tables to rules, and
last the flowtables.  An update of an object is sent as the message that
creates it.
-/

def NFNL_SUBSYS_NFTABLES : Nat := 10
def NFT_MSG_NEWRULE : Nat := 6
def NF_NETDEV_INGRESS : Nat := 0

/-- The message type of an nftables message. -/
def nftMsgType (msg : Nat) : Nat :=
  NFNL_SUBSYS_NFTABLES <<< 8 ||| msg

/-- The bytes of the header that every nftables message has. -/
def nfGenMsg (family : Family) : List UInt8 :=
  [UInt8.ofNat family.toU8, 0, 0, 0]

/-- The flags of a message that creates an object. -/
def NLM_F_NEW : Nat :=
  NLM_F_REQUEST ||| NLM_F_CREATE ||| NLM_F_EXCL

namespace Transaction

/-- `add_table`. -/
def addTable (name : String) (family : Family) : BatchOp :=
  .newTable NLM_F_NEW family name none

/-- `add_table_with_flags`: zero flags are left out of the message. -/
def addTableWithFlags (name : String) (family : Family) (flags : Nat) :
    BatchOp :=
  .newTable NLM_F_NEW family name (if flags ≠ 0 then some flags else none)

/-- `del_table`. -/
def delTable (name : String) (family : Family) : BatchOp :=
  .delTable family name

/-- `add_chain`: priority and device are sent with a hook only. -/
def addChain (chain : Chain) : BatchOp :=
  .newChain
    { flags := NLM_F_NEW
      family := chain.family
      table := chain.table.value
      name := chain.name.value
      chainType := chain.chainType
      hook := chain.hook.map fun hook =>
        { hooknum := hook.toU32
          priority := (chain.priority.getD .filter).toI32
          dev := chain.device }
      policy := chain.policy.map Policy.toU32 }

/-- `del_chain`. -/
def delChain (table name : String) (family : Family) : BatchOp :=
  .delChain family table name

section Rules

variable (order : ByteOrder)

/-- A rule's message up to its chain. -/
def ruleHeader (flags : Nat) (rule : Rule) : MessageBuilder :=
  (((MessageBuilder.new order (nftMsgType NFT_MSG_NEWRULE) flags).appendBytes
    (nfGenMsg rule.family)).appendAttrStr order NFTA_RULE_TABLE
    rule.table).appendAttrStr order NFTA_RULE_CHAIN rule.chain

/-- The payload of the attribute that `write_expressions` appends, if the rule
has expressions. -/
def ruleExpressions (builder : MessageBuilder) (exprs : List Expr) : Option (List UInt8) :=
  if exprs.isEmpty then
    none
  else
    some ((writeExpressions order builder exprs).buf.drop (builder.buf.length + NLA_HDRLEN))

/-- `add_rule`. -/
def addRule (rule : Rule) : BatchOp :=
  let flags := NLM_F_REQUEST ||| NLM_F_CREATE ||| NLM_F_APPEND
  let builder := ruleHeader order flags rule
  let builder :=
    match rule.position with
    | some position => builder.appendAttrU64Be order NFTA_RULE_POSITION position
    | none => builder
  .newRule
    { flags := flags
      family := rule.family
      table := rule.table
      chain := rule.chain
      position := rule.position
      handle := none
      expressions := ruleExpressions order builder rule.exprs
      userdata := rule.comment.bind encodeNlinkComment
      references := rule.references }

/-- `replace_rule`. -/
def replaceRule (rule : Rule) (handle : Nat) : BatchOp :=
  let flags := NLM_F_REQUEST ||| NLM_F_REPLACE
  let builder := (ruleHeader order flags rule).appendAttrU64Be order NFTA_RULE_HANDLE handle
  .newRule
    { flags := flags
      family := rule.family
      table := rule.table
      chain := rule.chain
      position := none
      handle := some handle
      expressions := ruleExpressions order builder rule.exprs
      userdata := rule.comment.bind encodeNlinkComment
      references := rule.references }

end Rules

/-- `del_rule`. -/
def delRule (table chain : String) (family : Family) (handle : Nat) :
    BatchOp :=
  .delRule family table chain handle

/-- `add_flowtable`: no devices and zero flags are left out. -/
def addFlowtable (flowtable : Flowtable) : BatchOp :=
  .newFlowtable
    { flags := NLM_F_NEW
      family := flowtable.family
      table := flowtable.table
      name := flowtable.name
      hookNum := NF_NETDEV_INGRESS
      priority := flowtable.priority
      devs := if flowtable.devs.isEmpty then none else some flowtable.devs
      flowtableFlags := if flowtable.flags ≠ 0 then some flowtable.flags else none }

/-- `del_flowtable`. -/
def delFlowtable (family : Family) (table name : String) : BatchOp :=
  .delFlowtable family table name

/-- `add_set`, with the transaction's next set id. -/
def addSet (set : Set) (setId : Nat) : BatchOp :=
  .newSet
    { flags := NLM_F_NEW
      family := set.family
      table := set.table
      name := set.name
      keyType := set.keyType.typeId
      keyLen := set.keyType.len
      setFlags := set.flags
      setId := setId }

/-- `del_set`. -/
def delSet (table name : String) (family : Family) : BatchOp :=
  .delSet family table name

/-- `add_set_elements`. -/
def addSetElements (table set : String) (family : Family) (elements : List SetElement) :
    BatchOp :=
  .newSetElements family table set elements

/-- `del_set_elements`. -/
def delSetElements (table set : String) (family : Family) (elements : List SetElement) :
    BatchOp :=
  .delSetElements family table set elements

end Transaction

/-- Rebuild a chain from its declaration; only the names can be rejected. -/
def buildChain (table : String) (family : Family) (declared : DeclaredChain) :
    Except Error Chain := do
  let chain ← Chain.new table declared.name
  pure
    { chain with
      family := family
      hook := declared.hook.or chain.hook
      priority := declared.priority.or chain.priority
      policy := declared.policy.or chain.policy
      chainType := declared.chainType.or chain.chainType
      device := declared.device.or chain.device }

def buildSet (table : String) (family : Family) (declared : DeclaredSet) :
    Set :=
  { Set.new table declared.name with
    family := family
    keyType := declared.keyType
    flags := declared.flags }

/-- Rebuild a flowtable from its declaration, flag by flag. -/
def buildFlowtable (declared : DeclaredFlowtable) : Flowtable :=
  let runtime :=
    { Flowtable.new declared.family declared.table declared.name with
      priority := declared.priority }
  let runtime := declared.devs.foldl Flowtable.device runtime
  let runtime :=
    if declared.flags &&& NFT_FLOWTABLE_HW_OFFLOAD ≠ 0 then runtime.hwOffload true else runtime
  if declared.flags &&& NFT_FLOWTABLE_COUNTER ≠ 0 then runtime.counter true else runtime

theorem foldl_device (devs : List String) (flowtable : Flowtable) :
    devs.foldl Flowtable.device flowtable = { flowtable with devs := flowtable.devs ++ devs } := by
  induction devs generalizing flowtable with
  | nil => simp
  | cons dev devs ih =>
      rw [foldl_cons, ih]
      simp [Flowtable.device]

theorem buildFlowtable_eq (declared : DeclaredFlowtable) : buildFlowtable declared =
      { family := declared.family
        table := declared.table
        name := declared.name
        devs := declared.devs
        priority := declared.priority
        flags := declared.flags } := by
  obtain ⟨family, table, name, devs, priority, flags, known⟩ := declared
  have cases : flags = 0 ∨ flags = 1 ∨ flags = 2 ∨ flags = 3 := by
    rw [KnownFlags] at known
    omega
  rw [buildFlowtable]
  simp only [foldl_device, Flowtable.new, List.nil_append]
  rcases cases with rfl | rfl | rfl | rfl <;>
    simp [NFT_FLOWTABLE_COUNTER, NFT_FLOWTABLE_HW_OFFLOAD,
      Flowtable.hwOffload, Flowtable.counter, setFlag]

/-- The body that is sent for a declared rule: the key becomes the comment
unless the body has one of its own. -/
def sentBody (rule : DeclaredRule) : Rule :=
  match rule.handleKey with
  | some key =>
      if rule.body.comment.isNone then { rule.body with comment := some key } else rule.body
  | none => rule.body

theorem sentBody_eq (rule : DeclaredRule) : sentBody rule =
      { rule.body with comment := rule.body.comment.or rule.handleKey } := by
  obtain ⟨table, chain, family, handleKey, body⟩ := rule
  obtain ⟨_, _, _, _, _, comment⟩ := body
  cases handleKey <;> cases comment <;> rfl

namespace NftablesDiff

variable (order : ByteOrder)

def deletions (diff : NftablesDiff) : List BatchOp :=
  (diff.rulesToDelete.map fun (table, family, chain, handle) =>
    Transaction.delRule table chain family handle) ++
  (diff.setElementsToRemove.map fun (table, family, set, elements) =>
    Transaction.delSetElements table set family elements) ++
  (diff.setsToDelete.map fun (table, family, name) => Transaction.delSet table name family) ++
  (diff.chainsToDelete.map fun (table, family, name) => Transaction.delChain table name family) ++
  (diff.flowtablesToDelete.map fun (family, table, name) =>
    Transaction.delFlowtable family table name) ++
  (diff.tablesToDelete.map fun (family, name) => Transaction.delTable name family)

/-- The additions and updates of tables and sets. -/
def tableAdditions (diff : NftablesDiff) : List BatchOp :=
  (diff.tablesToAdd.map fun table =>
    if table.flags ≠ 0 then
      Transaction.addTableWithFlags table.name table.family table.flags
    else
      Transaction.addTable table.name table.family) ++
  (diff.tablesToModify.map fun (family, name, flags) =>
    Transaction.addTableWithFlags name family flags) ++
  ((diff.setsToAdd.zipIdx 1).map fun ((table, family, declared), setId) =>
    Transaction.addSet (buildSet table family declared) setId) ++
  (diff.setElementsToAdd.map fun (table, family, set, elements) =>
    Transaction.addSetElements table set family elements)

def ruleAdditions (diff : NftablesDiff) : List BatchOp :=
  (diff.rulesToAdd.map fun rule => Transaction.addRule order (sentBody rule)) ++
  (diff.rulesToReplace.map fun (_, _, _, handle, rule) =>
    Transaction.replaceRule order (sentBody rule) handle)

def flowtableAdditions (diff : NftablesDiff) : List BatchOp :=
  diff.flowtablesToAdd.map fun flowtable => Transaction.addFlowtable (buildFlowtable flowtable)

/-- The batch of a diff; a chain name that is rejected ends the build. -/
def transaction (diff : NftablesDiff) : Except Error (List BatchOp) := do
  let chains ← (diff.chainsToAdd ++ diff.chainsToModify).mapM
    fun (table, family, declared) => buildChain table family declared
  pure
    (diff.deletions ++ diff.tableAdditions ++
      chains.map Transaction.addChain ++ diff.ruleAdditions order ++
      diff.flowtableAdditions)

/-- `apply`: what is committed; for a diff without changes, nothing. -/
def apply (diff : NftablesDiff) : Except Error (List BatchOp) :=
  if diff.changeCount = 0 then .ok [] else diff.transaction order

end NftablesDiff

/-!
## Sending a batch

`send_batch` numbers the messages of a batch from the socket's counter, sends
them between two control messages, and reads replies until one of them says
what became of the batch.  It takes as the batch's own the replies whose seq
lies between those of the two control messages.
-/

def NFNL_MSG_BATCH_BEGIN : Nat := 0x10
def NFNL_MSG_BATCH_END : Nat := 0x11

/-- `stamp_seq_pid`. -/
def stampSeqPid (order : ByteOrder) (msg : List UInt8) (seq pid : Nat) :
    Except Error (List UInt8) :=
  if msg.length < NLMSG_HDRLEN then
    .error
      (.invalidMessage ("nftables batch: inner message is " ++ toString msg.length ++
          " bytes, shorter than a " ++ toString NLMSG_HDRLEN ++
          "-byte netlink header"))
  else
    .ok (msg.take 8 ++ order.toBytes 4 seq ++ order.toBytes 4 pid ++ msg.drop 16)

/-- A control message of a batch, for the nftables subsystem. -/
def controlMessage (order : ByteOrder) (msgType flags seq pid : Nat) : List UInt8 :=
  let built := ((MessageBuilder.new order msgType flags).appendBytes [0, 0, 0, 10])
  let stamped := built.buf.take 8 ++ order.toBytes 4 seq ++ order.toBytes 4 pid ++ built.buf.drop 16
  MessageBuilder.finish order { buf := stamped }

/-- The inner messages with their seqs stamped, the seqs, and the counter
behind them. -/
def stampMessages (order : ByteOrder) (pid : Nat) : Nat → List (List UInt8) →
      Except Error (List (List UInt8) × List Nat × Nat)
  | counter, [] => .ok ([], [], counter)
  | counter, msg :: rest =>
      let (seq, counter) := nextNonzeroSeq counter
      match stampSeqPid order msg seq pid with
      | .error error => .error error
      | .ok stamped =>
          match stampMessages order pid counter rest with
          | .error error => .error error
          | .ok (others, seqs, counter) => .ok (stamped :: others, seq :: seqs, counter)

/-- A batch as it is sent: its bytes, and the seqs of its messages. -/
structure Batch where
  bytes : List UInt8
  beginSeq : Nat
  seqs : List Nat
  endSeq : Nat

/-- The batch that is sent for these messages. -/
def buildBatch (order : ByteOrder) (counter pid : Nat) (messages : List (List UInt8)) :
    Except Error Batch :=
  let (beginSeq, counter) := nextNonzeroSeq counter
  match stampMessages order pid counter messages with
  | .error error => .error error
  | .ok (stamped, seqs, counter) =>
      let endSeq := (nextNonzeroSeq counter).1
      .ok
        { bytes :=
            controlMessage order NFNL_MSG_BATCH_BEGIN NLM_F_REQUEST beginSeq pid ++
              stamped.flatten ++
              controlMessage order NFNL_MSG_BATCH_END (NLM_F_REQUEST ||| NLM_F_ACK) endSeq pid
          beginSeq := beginSeq
          seqs := seqs
          endSeq := endSeq }

/-- The loop over the messages of a datagram; without a result it reads on. -/
def readReplies (order : ByteOrder) (beginSeq endSeq : Nat) :
    List (Except Error Message) → Option (Except Error Unit)
  | [] => none
  | .error error :: _ => some (.error error)
  | .ok (header, payload) :: rest =>
      -- The window is a range: it is empty if its end is below its start.
      if ¬ (beginSeq ≤ header.nlmsgSeq ∧ header.nlmsgSeq ≤ endSeq) then
        readReplies order beginSeq endSeq rest
      else if header.isError then
        match NlMsgError.fromBytes order payload with
        | .error error => some (.error error)
        | .ok err =>
            if err.isAck then
              if header.nlmsgSeq = endSeq then
                some (.ok ())
              else
                readReplies order beginSeq endSeq rest
            else
              some (.error (err.intoError order payload))
      else if header.isDone then
        some
          (.error (.invalidMessage
              ("nftables batch: unexpected NLMSG_DONE at seq " ++ toString header.nlmsgSeq ++
                " (nfnetlink does not terminate batches with DONE)")))
      else
        readReplies order beginSeq endSeq rest

/-- The loop over the datagrams that arrive; without a result it waits. -/
def recvReplies (order : ByteOrder) (beginSeq endSeq : Nat) :
    List Datagram → Option (Except Error Unit)
  | [] => none
  | data :: incoming =>
      match readReplies order beginSeq endSeq (messageIter order data) with
      | some result => some result
      | none => recvReplies order beginSeq endSeq incoming

/-- `send_batch`, given the datagrams that arrive after it has sent. -/
def sendBatch (order : ByteOrder) (counter pid : Nat) (messages : List (List UInt8))
    (incoming : List Datagram) : Option (Except Error Unit) :=
  if messages.isEmpty then
    some (.ok ())
  else
    match buildBatch order counter pid messages with
    | .error error => some (.error error)
    | .ok batch => recvReplies order batch.beginSeq batch.endSeq incoming

/-!
## What the kernel replies

The replies to a batch are the messages with its seqs, whatever else arrives.
-/

def Batch.numbers (batch : Batch) : List Nat :=
  batch.beginSeq :: (batch.seqs ++ [batch.endSeq])

/-- The replies to a batch among the datagrams that arrive. -/
def Batch.replies (batch : Batch) (order : ByteOrder) (incoming : List Datagram) : List Message :=
  (incoming.flatMap (okMessages order)).filter fun message => message.1.nlmsgSeq ∈ batch.numbers

/-- The kernel accepted the batch: acknowledgements of its operations, and then
of its end. -/
def Accepted (order : ByteOrder) (batch : Batch) (incoming : List Datagram) :
    Prop :=
  ∃ acks done, batch.replies order incoming = acks ++ [done] ∧
      (∀ message ∈ acks, Reply order message none ∧ message.1.nlmsgSeq ∈ batch.seqs) ∧
      Reply order done none ∧ done.1.nlmsgSeq = batch.endSeq

/-- The kernel rejected these operations of the batch: an error for each, and
no acknowledgement of the end. -/
structure Rejected (order : ByteOrder) (batch : Batch)
    (incoming : List Datagram) (rejected : List Nat) : Prop where
  some_rejected : rejected ≠ []
  operations : rejected ⊆ batch.seqs
  replies : ∀ message ∈ batch.replies order incoming,
    (∃ error, Reply order message (some error) ∧ message.1.nlmsgSeq ∈ rejected) ∨
      (Reply order message none ∧ message.1.nlmsgSeq ∈ batch.seqs ∧
        message.1.nlmsgSeq ≠ batch.endSeq)
  errors : ∀ seq ∈ rejected, ∃ message ∈ batch.replies order incoming, ∃ error,
      Reply order message (some error) ∧ message.1.nlmsgSeq = seq

/-- For every answer of the kernel, `send_batch` succeeds if the batch was
accepted, and returns the error of a rejected operation otherwise. -/
def ReportsExactly (order : ByteOrder) (counter pid : Nat) (messages : List (List UInt8)) :
    Prop :=
  ∀ batch, buildBatch order counter pid messages = .ok batch →
    ∀ incoming, (∀ data ∈ incoming, Netlink.WellFormed order data) →
      (Accepted order batch incoming →
        sendBatch order counter pid messages incoming = some (.ok ())) ∧
      ∀ rejected, Rejected order batch incoming rejected →
        ∃ message ∈ batch.replies order incoming, ∃ error, Reply order message (some error) ∧
            message.1.nlmsgSeq ∈ rejected ∧
            sendBatch order counter pid messages incoming = some (.error error)

/-!
## The window of a batch

The seqs of a batch are consecutive, from the first on, in a cycle that leaves
out zero.  The replies are all read exactly when the range between the first and
the last seq holds the others, and that is when the cycle does not begin anew
within the batch.
-/

variable (order : ByteOrder)

theorem stampSeqPid_finished {message : List UInt8}
    (finished : NLMSG_HDRLEN ≤ message.length) (seq pid : Nat) :
    ∃ stamped, stampSeqPid order message seq pid = .ok stamped := by
  rw [stampSeqPid, if_neg (Nat.not_lt.mpr finished)]
  exact ⟨_, rfl⟩

variable {counter : Nat}

theorem stampMessages_spec (pid : Nat) (fits : counter < 2 ^ 32) (messages : List (List UInt8))
    (finished : ∀ message ∈ messages, NLMSG_HDRLEN ≤ message.length) :
    ∃ stamped next, stampMessages order pid counter messages =
          .ok (stamped, (List.range messages.length).map (seqAt (headSeq counter)), next) ∧
        headSeq next = seqAt (headSeq counter) messages.length := by
  induction messages generalizing counter with
  | nil => exact ⟨[], counter, rfl, (seqAt_zero (headSeq_pos counter) (headSeq_le fits)).symm⟩
  | cons message rest ih =>
      obtain ⟨nextFits, isNext⟩ := nextNonzeroSeq_spec fits
      obtain ⟨stamped, last, isStamped, isLast⟩ :=
        ih nextFits fun other member => finished other (mem_cons_of_mem _ member)
      obtain ⟨first, isFirst⟩ :=
        stampSeqPid_finished order (finished message (mem_cons_self ..)) (headSeq counter) pid
      have shifted : seqAt (headSeq counter) ∘ Nat.succ = seqAt (seqAt (headSeq counter) 1) :=
        funext (seqAt_succ (headSeq counter))
      have seqs : (List.range (message :: rest).length).map (seqAt (headSeq counter)) =
            headSeq counter :: (List.range rest.length).map
                (seqAt (seqAt (headSeq counter) 1)) := by
        rw [length_cons, range_succ_eq_map, map_cons, map_map, shifted,
          seqAt_zero (headSeq_pos counter) (headSeq_le fits)]
      refine ⟨first :: stamped, last, ?_, ?_⟩
      · rw [headSeq] at isFirst
        rw [isNext] at isStamped
        simp only [stampMessages, isFirst, isStamped, seqs]
        rfl
      · rw [isNext] at isLast
        exact isLast.trans (seqAt_succ (headSeq counter) rest.length).symm

theorem buildBatch_spec (pid : Nat) (fits : counter < 2 ^ 32) (messages : List (List UInt8))
    (finished : ∀ message ∈ messages, NLMSG_HDRLEN ≤ message.length) :
    ∃ batch, buildBatch order counter pid messages = .ok batch ∧ batch.beginSeq = headSeq counter ∧
        batch.seqs = (List.range messages.length).map
            (fun place => seqAt (headSeq counter) (place + 1)) ∧
        batch.endSeq = seqAt (headSeq counter) (messages.length + 1) := by
  obtain ⟨nextFits, isNext⟩ := nextNonzeroSeq_spec fits
  obtain ⟨stamped, last, isStamped, isLast⟩ :=
    stampMessages_spec order pid nextFits messages finished
  cases built : buildBatch order counter pid messages with
  | error error => simp only [buildBatch, isStamped, reduceCtorEq] at built
  | ok batch =>
      simp only [buildBatch, isStamped, Except.ok.injEq] at built
      subst built
      refine ⟨_, rfl, rfl, ?_, ?_⟩
      · rw [isNext]
        exact map_congr_left fun place _ => (seqAt_succ (headSeq counter) place).symm
      · rw [isNext] at isLast
        exact isLast.trans (seqAt_succ (headSeq counter) messages.length).symm

/-- The seqs of a batch all lie between its first and its last. -/
def InWindow (start count : Nat) : Prop :=
  ∀ place, place ≤ count + 1 →
    start ≤ seqAt start place ∧ seqAt start place ≤ seqAt start (count + 1)

variable {start count : Nat}

theorem inWindow_iff (positive : 1 ≤ start) (fits : start ≤ seqPeriod) : InWindow start count ↔
      start + count + 1 < 2 ^ 32 ∨ start = 1 ∧ seqPeriod ∣ count + 2 := by
  constructor
  · intro window
    by_contra wraps
    obtain ⟨long, whole⟩ := not_or.mp wraps
    have first := window (seqPeriod - start + 1)
    have before := window (seqPeriod - start)
    simp only [seqAt, seqPeriod] at *
    omega
  · rintro (short | ⟨rfl, whole⟩) place le
    · simp only [seqAt, seqPeriod] at *
      omega
    · simp only [seqAt, seqPeriod] at *
      omega

theorem exists_place {start count seq : Nat} (positive : 1 ≤ start) (fits : start ≤ seqPeriod)
    (window : InWindow start count) (above : start ≤ seq) (below : seq ≤ seqAt start (count + 1)) :
    ∃ place, place ≤ count + 1 ∧ seqAt start place = seq := by
  rcases (inWindow_iff positive fits).mp window with short | ⟨rfl, whole⟩
  · refine ⟨seq - start, ?_⟩
    simp only [seqAt, seqPeriod] at *
    omega
  · refine ⟨seq - 1, ?_⟩
    simp only [seqAt, seqPeriod] at *
    omega

section

variable {order : ByteOrder} {beginSeq endSeq : Nat}

theorem readReplies_append (first second : List (Except Error Message)) :
    readReplies order beginSeq endSeq (first ++ second) =
      (readReplies order beginSeq endSeq first).or (readReplies order beginSeq endSeq second) := by
  induction first with
  | nil => rfl
  | cons result rest ih =>
      cases result with
      | error error => rfl
      | ok message =>
          simp only [cons_append, readReplies, ih]
          repeat' split
          all_goals rfl

theorem recvReplies_eq (incoming : List Datagram)
    (wellFormed : ∀ data ∈ incoming, Netlink.WellFormed order data) :
    recvReplies order beginSeq endSeq incoming = readReplies order beginSeq endSeq
        ((incoming.flatMap (okMessages order)).map .ok) := by
  induction incoming with
  | nil => rfl
  | cons data rest ih =>
      have later := ih fun other member => wellFormed other (mem_cons_of_mem _ member)
      rw [recvReplies, flatMap_cons, map_append, readReplies_append, ← later,
        ← messageIter_eq_map (wellFormed data (mem_cons_self ..))]
      cases readReplies order beginSeq endSeq (messageIter order data) with
      | none => rfl
      | some result => rfl

variable {message : Message}

theorem readReplies_outside
    (outside : ¬ (beginSeq ≤ message.1.nlmsgSeq ∧ message.1.nlmsgSeq ≤ endSeq))
    (rest : List (Except Error Message)) :
    readReplies order beginSeq endSeq (.ok message :: rest) =
      readReplies order beginSeq endSeq rest := by
  rw [readReplies, if_pos outside]

theorem readReplies_filter (messages : List Message) :
    readReplies order beginSeq endSeq (messages.map .ok) = readReplies order beginSeq endSeq
        ((messages.filter fun message =>
          beginSeq ≤ message.1.nlmsgSeq ∧ message.1.nlmsgSeq ≤ endSeq).map .ok) := by
  induction messages with
  | nil => rfl
  | cons message rest ih =>
      by_cases inside : beginSeq ≤ message.1.nlmsgSeq ∧ message.1.nlmsgSeq ≤ endSeq
      · rw [filter_cons_of_pos (by simpa using inside), map_cons,
          map_cons, readReplies, readReplies, ih]
      · rw [filter_cons_of_neg (by simpa using inside), map_cons,
          readReplies_outside inside, ih]

theorem readReplies_ack (ack : Reply order message none)
    (inside : beginSeq ≤ message.1.nlmsgSeq ∧ message.1.nlmsgSeq ≤ endSeq)
    (rest : List (Except Error Message)) :
    readReplies order beginSeq endSeq (.ok message :: rest) =
      if message.1.nlmsgSeq = endSeq then some (.ok ())
      else readReplies order beginSeq endSeq rest := by
  obtain ⟨err, isError, parsed, acknowledges⟩ := ack
  rw [readReplies, if_neg (not_not.mpr inside), if_pos isError, parsed]
  simp only [acknowledges, if_true]

theorem readReplies_rejects {error : Error} (rejects : Reply order message (some error))
    (inside : beginSeq ≤ message.1.nlmsgSeq ∧ message.1.nlmsgSeq ≤ endSeq)
    (rest : List (Except Error Message)) :
    readReplies order beginSeq endSeq (.ok message :: rest) = some (.error error) := by
  obtain _ | ⟨err, isError, parsed, nonZero⟩ := rejects
  rw [readReplies, if_neg (not_not.mpr inside), if_pos isError, parsed]
  simp only [nonZero, Bool.false_eq_true, if_false]

theorem readReplies_accepted (acks : List Message) (done : Message)
    (acknowledge : ∀ message ∈ acks ++ [done], Reply order message none)
    (inside : ∀ message ∈ acks ++ [done],
      beginSeq ≤ message.1.nlmsgSeq ∧ message.1.nlmsgSeq ≤ endSeq)
    (isEnd : done.1.nlmsgSeq = endSeq) :
    readReplies order beginSeq endSeq ((acks ++ [done]).map .ok) = some (.ok ()) := by
  induction acks with
  | nil =>
      have member : done ∈ [] ++ [done] := mem_singleton_self done
      rw [List.nil_append, map_cons, readReplies_ack (acknowledge done member) (inside done
        member), if_pos isEnd]
  | cons ack rest ih =>
      have later := ih (fun message member => acknowledge message (mem_cons_of_mem _ member))
        (fun message member => inside message (mem_cons_of_mem _ member))
      have member : ack ∈ ack :: rest ++ [done] := mem_cons_self ..
      rw [cons_append, map_cons,
        readReplies_ack (acknowledge ack member) (inside ack member), later]
      split <;> rfl

theorem readReplies_rejected (replies : List Message)
    (outcomes : ∀ message ∈ replies, (∃ error, Reply order message (some error)) ∨
        (Reply order message none ∧ message.1.nlmsgSeq ≠ endSeq))
    (inside : ∀ message ∈ replies, beginSeq ≤ message.1.nlmsgSeq ∧ message.1.nlmsgSeq ≤ endSeq)
    (rejects : ∃ message ∈ replies, ∃ error, Reply order message (some error)) :
    ∃ message ∈ replies, ∃ error, Reply order message (some error) ∧
        readReplies order beginSeq endSeq (replies.map .ok) = some (.error error) := by
  induction replies with
  | nil =>
      obtain ⟨message, member, _⟩ := rejects
      cases member
  | cons reply rest ih =>
      have first : reply ∈ reply :: rest := mem_cons_self ..
      rcases outcomes reply first with ⟨error, isError⟩ | ⟨ack, notEnd⟩
      · refine ⟨reply, first, error, isError, ?_⟩
        rw [map_cons, readReplies_rejects isError (inside reply first)]
      · have laterRejects : ∃ message ∈ rest, ∃ error, Reply order message (some error) := by
          obtain ⟨message, member, error, isError⟩ := rejects
          rcases mem_cons.mp member with rfl | member
          · exact absurd isError (not_rejects_of_ack ack error)
          · exact ⟨message, member, error, isError⟩
        obtain ⟨message, member, error, isError, result⟩ :=
          ih
            (fun other otherMember => outcomes other (mem_cons_of_mem _ otherMember))
            (fun other otherMember => inside other (mem_cons_of_mem _ otherMember))
            laterRejects
        refine ⟨message, mem_cons_of_mem _ member, error, isError, ?_⟩
        rw [map_cons, readReplies_ack ack (inside reply first), if_neg notEnd, result]

end

variable {batch : Batch}

theorem mem_numbers_iff (positive : 1 ≤ start) (fits : start ≤ seqPeriod)
    (isBegin : batch.beginSeq = start)
    (areSeqs : batch.seqs = (List.range count).map fun place => seqAt start (place + 1))
    (isEnd : batch.endSeq = seqAt start (count + 1)) (seq : Nat) :
    seq ∈ batch.numbers ↔ ∃ place, place ≤ count + 1 ∧ seqAt start place = seq := by
  rw [Batch.numbers, isBegin, areSeqs, isEnd, mem_cons, mem_append,
    mem_singleton, mem_map]
  constructor
  · rintro (rfl | ⟨place, member, rfl⟩ | rfl)
    · exact ⟨0, Nat.zero_le _, seqAt_zero positive fits⟩
    · have below := mem_range.mp member
      exact ⟨place + 1, Nat.succ_le_succ (Nat.le_of_lt below), rfl⟩
    · exact ⟨count + 1, Nat.le_refl _, rfl⟩
  · rintro ⟨place, le, rfl⟩
    rcases place with _ | place
    · exact Or.inl (seqAt_zero positive fits)
    · rcases Nat.lt_or_ge place count with below | above
      · exact Or.inr (Or.inl ⟨place, mem_range.mpr below, rfl⟩)
      · have isCount : place = count := Nat.le_antisymm (Nat.le_of_succ_le_succ le) above
        exact Or.inr (Or.inr (by rw [isCount]))

theorem replies_eq_filter (positive : 1 ≤ start) (fits : start ≤ seqPeriod)
    (isBegin : batch.beginSeq = start)
    (areSeqs : batch.seqs = (List.range count).map fun place => seqAt start (place + 1))
    (isEnd : batch.endSeq = seqAt start (count + 1)) (window : InWindow start count)
    (order : ByteOrder) (incoming : List Datagram) :
    batch.replies order incoming =
      (incoming.flatMap (okMessages order)).filter fun message =>
        batch.beginSeq ≤ message.1.nlmsgSeq ∧ message.1.nlmsgSeq ≤ batch.endSeq := by
  refine filter_congr ?_
  intro message _
  refine decide_eq_decide.mpr ?_
  rw [mem_numbers_iff positive fits isBegin areSeqs isEnd, isBegin, isEnd]
  constructor
  · rintro ⟨place, le, isSeq⟩
    rw [← isSeq]
    exact window place le
  · rintro ⟨above, below⟩
    exact exists_place positive fits window above below

/-- With all replies in the window, `send_batch` reports what happened. -/
theorem reportsExactly_of_inWindow (fits : counter < 2 ^ 32) (pid : Nat)
    (messages : List (List UInt8)) (nonempty : messages ≠ [])
    (finished : ∀ message ∈ messages, NLMSG_HDRLEN ≤ message.length)
    (window : InWindow (headSeq counter) messages.length) :
    ReportsExactly order counter pid messages := by
  intro batch built incoming wellFormed
  obtain ⟨other, isBuilt, isBegin, areSeqs, isEnd⟩ :=
    buildBatch_spec order pid fits messages finished
  rw [built, Except.ok.injEq] at isBuilt
  subst isBuilt
  have isReplies :=
    replies_eq_filter (headSeq_pos counter) (headSeq_le fits) isBegin areSeqs
      isEnd window order incoming
  have sent : sendBatch order counter pid messages incoming =
        readReplies order batch.beginSeq batch.endSeq ((batch.replies order incoming).map .ok) := by
    rw [sendBatch, if_neg (by simpa using nonempty), built, isReplies, ← readReplies_filter]
    exact recvReplies_eq incoming wellFormed
  have inside : ∀ message ∈ batch.replies order incoming, batch.beginSeq ≤ message.1.nlmsgSeq ∧
        message.1.nlmsgSeq ≤ batch.endSeq := by
    intro message member
    rw [isReplies, mem_filter] at member
    exact of_decide_eq_true member.2
  constructor
  · rintro ⟨acks, done, replies, acknowledge, isAck, isDone⟩
    rw [sent, replies]
    rw [replies] at inside
    refine readReplies_accepted acks done ?_ inside isDone
    intro message member
    rcases mem_append.mp member with ack | last
    · exact (acknowledge message ack).1
    · cases mem_singleton.mp last
      exact isAck
  · intro rejected rejects
    have outcomes : ∀ message ∈ batch.replies order incoming,
        (∃ error, Reply order message (some error)) ∨
          (Reply order message none ∧ message.1.nlmsgSeq ≠ batch.endSeq) := by
      intro message member
      exact (rejects.replies message member).imp (fun ⟨error, isError, _⟩ => ⟨error, isError⟩)
        (fun ⟨ack, _, notEnd⟩ => ⟨ack, notEnd⟩)
    obtain ⟨seq, seqRejected⟩ := exists_mem_of_ne_nil rejected rejects.some_rejected
    obtain ⟨reply, replyMember, replyError, isReply, _⟩ := rejects.errors seq seqRejected
    obtain ⟨message, member, error, isError, result⟩ :=
      readReplies_rejected (batch.replies order incoming) outcomes inside
        ⟨reply, replyMember, replyError, isReply⟩
    refine ⟨message, member, error, isError, ?_, sent.trans result⟩
    rcases rejects.replies message member with ⟨_, _, isRejected⟩ | ⟨ack, _⟩
    · exact isRejected
    · exact absurd isError (not_rejects_of_ack ack error)

/-!
## Replies that are passed over

A reply with a seq outside the window is passed over, and `send_batch` waits on.
-/

theorem replies_replyDatagram (code : Nat) {seq : Nat} (fits : seq < 2 ^ 32)
    (member : seq ∈ batch.numbers) :
    batch.replies order [replyDatagram order code seq] = [replyMessage order code seq] := by
  rw [Batch.replies, flatMap_singleton,
    okMessages_replyDatagram order code fits, filter_eq_self]
  intro message isReply
  cases mem_singleton.mp isReply
  exact decide_eq_true member

theorem recvReplies_replyDatagram (code : Nat) {seq beginSeq endSeq : Nat}
    (fits : seq < 2 ^ 32) (outside : ¬ (beginSeq ≤ seq ∧ seq ≤ endSeq)) :
    recvReplies order beginSeq endSeq [replyDatagram order code seq] =
      none := by
  have passed : readReplies order beginSeq endSeq [.ok (replyMessage order code seq)] = none :=
    readReplies_outside outside []
  rw [recvReplies, messageIter_replyDatagram order code fits]
  rw [replyMessage] at passed
  rw [passed]
  rfl

theorem inWindow_of_reportsExactly (fits : counter < 2 ^ 32) (pid : Nat)
    (messages : List (List UInt8)) (nonempty : messages ≠ [])
    (finished : ∀ message ∈ messages, NLMSG_HDRLEN ≤ message.length)
    (reports : ReportsExactly order counter pid messages) :
    InWindow (headSeq counter) messages.length := by
  obtain ⟨batch, built, isBegin, areSeqs, isEnd⟩ := buildBatch_spec order pid fits messages finished
  have positive := headSeq_pos counter
  have headFits := headSeq_le fits
  have seqFits : ∀ place, seqAt (headSeq counter) place < 2 ^ 32 := by
    intro place
    simp only [seqAt, seqPeriod]
    omega
  have isNumber : ∀ place, place ≤ messages.length + 1 →
      seqAt (headSeq counter) place ∈ batch.numbers := by
    intro place le
    exact (mem_numbers_iff positive headFits isBegin areSeqs isEnd _).mpr ⟨place, le, rfl⟩
  have wellFormed : ∀ code place, ∀ data ∈
      [replyDatagram order code (seqAt (headSeq counter) place)],
      Netlink.WellFormed order data := by
    intro code place data member
    cases mem_singleton.mp member
    intro result isResult
    rw [messageIter_replyDatagram order code (seqFits place), mem_singleton] at isResult
    rw [isResult]
    rfl
  have waits : ∀ code place,
      ¬ (batch.beginSeq ≤ seqAt (headSeq counter) place ∧
        seqAt (headSeq counter) place ≤ batch.endSeq) →
      sendBatch order counter pid messages
        [replyDatagram order code (seqAt (headSeq counter) place)] =
          none := by
    intro code place outside
    rw [sendBatch, if_neg (by simpa using nonempty), built]
    exact recvReplies_replyDatagram order code (seqFits place) outside
  -- First the end, whose acknowledgement would be passed over.
  have forward : headSeq counter ≤ seqAt (headSeq counter) (messages.length + 1) := by
    by_contra backward
    have outside :
        ¬ (batch.beginSeq ≤ seqAt (headSeq counter) (messages.length + 1) ∧
          seqAt (headSeq counter) (messages.length + 1) ≤ batch.endSeq) := by
      rw [isBegin]
      exact fun inside => backward inside.1
    have accepted : Accepted order batch
        [replyDatagram order 0 (seqAt (headSeq counter) (messages.length + 1))] := by
      refine ⟨[], _, replies_replyDatagram order 0 (seqFits _) (isNumber _ (Nat.le_refl _)), ?_,
        reply_zero order (seqFits _), isEnd.symm⟩
      intro message member
      cases member
    have succeeds := (reports batch built _ (wellFormed 0 _)).1 accepted
    rw [waits 0 _ outside] at succeeds
    cases succeeds
  -- Then the operations, whose errors would be.
  intro place le
  by_contra escapes
  have outside :
      ¬ (batch.beginSeq ≤ seqAt (headSeq counter) place ∧
        seqAt (headSeq counter) place ≤ batch.endSeq) := by
    rw [isBegin, isEnd]
    exact escapes
  have isOperation : seqAt (headSeq counter) place ∈ batch.seqs := by
    rcases place with _ | place
    · rw [seqAt_zero positive headFits] at escapes
      exact absurd ⟨Nat.le_refl _, forward⟩ escapes
    · rcases Nat.lt_or_ge place messages.length with below | above
      · rw [areSeqs]
        exact mem_map.mpr ⟨place, mem_range.mpr below, rfl⟩
      · have isLast : place = messages.length := Nat.le_antisymm (Nat.le_of_succ_le_succ le) above
        rw [isLast] at escapes
        exact absurd ⟨forward, Nat.le_refl _⟩ escapes
  obtain ⟨error, isError⟩ := reply_nonzero order (seqFits place)
  have replies := replies_replyDatagram order (2 ^ 32 - 1) (seqFits place) (isNumber place le)
  have rejected : Rejected order batch
      [replyDatagram order (2 ^ 32 - 1) (seqAt (headSeq counter) place)]
      [seqAt (headSeq counter) place] := by
    refine ⟨cons_ne_nil _ _, ?_, ?_, ?_⟩
    · intro seq member
      cases mem_singleton.mp member
      exact isOperation
    · intro message member
      rw [replies, mem_singleton] at member
      subst member
      exact Or.inl ⟨error, isError, mem_singleton_self _⟩
    · intro seq member
      cases mem_singleton.mp member
      refine ⟨_, ?_, error, isError, rfl⟩
      rw [replies]
      exact mem_singleton_self _
  obtain ⟨_, _, _, _, _, fails⟩ := (reports batch built _ (wellFormed _ place)).2 _ rejected
  rw [waits _ place outside] at fails
  cases fails

/-- For every answer of the kernel, `send_batch` reports exactly what happened
to the batch, if and only if its seqs do not wrap, or run through whole cycles
from the first seq of the cycle on. -/
theorem sendBatch_reportsExactly_iff (order : ByteOrder) (counter pid : Nat)
    (fits : counter < 2 ^ 32) (messages : List (List UInt8)) (nonempty : messages ≠ [])
    (finished : ∀ message ∈ messages, NLMSG_HDRLEN ≤ message.length) :
    ReportsExactly order counter pid messages ↔ headSeq counter + messages.length + 1 < 2 ^ 32 ∨
        headSeq counter = 1 ∧ seqPeriod ∣ messages.length + 2 := by
  rw [← inWindow_iff (headSeq_pos counter) (headSeq_le fits)]
  constructor
  · exact inWindow_of_reportsExactly order fits pid messages nonempty finished
  · exact reportsExactly_of_inWindow order fits pid messages nonempty finished

/-- One message, with a counter that does not wrap. -/
theorem sendBatch_reportsExactly_iff_first : ReportsExactly .little 1 0 [List.replicate 16 0] :=
  (sendBatch_reportsExactly_iff .little 1 0 (by decide)
    [List.replicate 16 0] (by decide) (by decide)).mpr (Or.inl (by decide))

/-- With the counter at 2^32 - 2, the end of the batch gets the seq 1, and its
acknowledgement is passed over: `send_batch` waits for ever. -/
theorem sendBatch_waits :
    (∃ batch, buildBatch .little (2 ^ 32 - 2) 0 [List.replicate 16 0] = .ok batch ∧
        batch.beginSeq = 2 ^ 32 - 2 ∧ batch.seqs = [2 ^ 32 - 1] ∧
        batch.endSeq = 1 ∧
        Accepted .little batch [replyDatagram .little 0 1]) ∧
      sendBatch .little (2 ^ 32 - 2) 0 [List.replicate 16 0] [replyDatagram .little 0 1] = none ∧
      ¬ ReportsExactly .little (2 ^ 32 - 2) 0 [List.replicate 16 0] := by
  have answered : ∃ batch, buildBatch .little (2 ^ 32 - 2) 0 [List.replicate 16 0] = .ok batch ∧
      batch.beginSeq = 2 ^ 32 - 2 ∧ batch.seqs = [2 ^ 32 - 1] ∧ batch.endSeq = 1 ∧
      Accepted .little batch [replyDatagram .little 0 1] :=
    ⟨_, rfl, rfl, rfl, rfl, [], _, replies_replyDatagram .little 0 (by decide) (by decide), nofun,
      reply_zero .little (by decide), rfl⟩
  have waits : sendBatch .little (2 ^ 32 - 2) 0 [List.replicate 16 0]
      [replyDatagram .little 0 1] = none := rfl
  refine ⟨answered, waits, ?_⟩
  intro reports
  obtain ⟨batch, built, _, _, _, accepted⟩ := answered
  have wellFormed : ∀ data ∈ [replyDatagram .little 0 1], Netlink.WellFormed .little data := by
    intro data member
    cases mem_singleton.mp member
    intro result isResult
    rw [messageIter_replyDatagram .little 0 (by decide), mem_singleton] at isResult
    rw [isResult]
    rfl
  have succeeds := (reports batch built _ wellFormed).1 accepted
  rw [waits] at succeeds
  cases succeeds

end Nlink.Nftables
