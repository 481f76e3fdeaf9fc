import Nlink.GenlMessage
import Nlink.NetlinkReply
import Nlink.NetlinkRoute

namespace Nlink.SharedAction

open Foundation Netlink List

/-!
# Requests for shared actions

An action that is shared by filters is created, listed and deleted by messages
of its own.  The connection writes them behind the header of a queueing
discipline's message, and reads replies behind such a header.
-/

def RTM_NEWACTION : Nat := 48
def RTM_DELACTION : Nat := 49
def RTM_GETACTION : Nat := 50

def NLM_F_DUMP : Nat := 0x300

def TCA_ACT_TAB : Nat := 1
def TCA_ACT_KIND : Nat := 1
def TCA_ACT_OPTIONS : Nat := 2
def TCA_ACT_INDEX : Nat := 3
def TCA_GACT_PARMS : Nat := 2
def TCA_GACT_PROB : Nat := 3
def PGACT_NONE : BitVec 16 := 0
def TC_ACT_OK : BitVec 32 := 0
def TC_ACT_SHOT : BitVec 32 := 2

/-- `TcMsg`. -/
structure TcMsg where
  tcmFamily : UInt8
  tcmPad1 : UInt8
  tcmPad2 : BitVec 16
  tcmIfindex : BitVec 32
  tcmHandle : BitVec 32
  tcmParent : BitVec 32
  tcmInfo : BitVec 32

namespace TcMsg

def SIZE : Nat := 20

/-- `TcMsg::default`. -/
def default : TcMsg where
  tcmFamily := 0
  tcmPad1 := 0
  tcmPad2 := 0
  tcmIfindex := 0
  tcmHandle := 0
  tcmParent := 0
  tcmInfo := 0

def asBytes (order : ByteOrder) (msg : TcMsg) : List UInt8 :=
  [msg.tcmFamily, msg.tcmPad1] ++ order.toBytes 2 msg.tcmPad2.toNat ++
    order.toBytes 4 msg.tcmIfindex.toNat ++
    order.toBytes 4 msg.tcmHandle.toNat ++
    order.toBytes 4 msg.tcmParent.toNat ++ order.toBytes 4 msg.tcmInfo.toNat

theorem asBytes_default (order : ByteOrder) : default.asBytes order = List.replicate 20 0 := by
  cases order <;> decide

end TcMsg

/-- `ActionConfig`: a kind, and how the options are written behind what has been
written before. -/
structure ActionConfig where
  kind : String
  writeOptions : MessageBuilder → Except Error MessageBuilder
  appends : ∀ builder next, writeOptions builder = .ok next → builder.buf <+: next.buf

section Requests

variable (order : ByteOrder)

/-- A message with the header that all these requests have. -/
def begun (msgType flags : Nat) : MessageBuilder :=
  (MessageBuilder.new order msgType flags).appendBytes (TcMsg.default.asBytes order)

/-- The request of `add_action`. -/
def addRequest (action : ActionConfig) : Except Error MessageBuilder := do
  let b := begun order RTM_NEWACTION
    (NLM_F_REQUEST ||| NLM_F_ACK ||| NLM_F_CREATE)
  let tab := b.buf.length
  let b := b.nestStart order TCA_ACT_TAB
  let act := b.buf.length
  let b := b.nestStart order 1
  let b := b.appendAttr order TCA_ACT_KIND (asBytes action.kind)
  let opts := b.buf.length
  let b := b.nestStart order TCA_ACT_OPTIONS
  let b ← action.writeOptions b
  return ((b.nestEnd order opts).nestEnd order act).nestEnd order tab

def indexRequest (msgType flags : Nat) (kind : String) (index : BitVec 32) :
    MessageBuilder :=
  let b := begun order msgType flags
  let tab := b.buf.length
  let b := b.nestStart order TCA_ACT_TAB
  let act := b.buf.length
  let b := b.nestStart order 1
  let b := b.appendAttr order TCA_ACT_KIND (asBytes kind)
  let b := b.appendAttrU32 order TCA_ACT_INDEX index.toNat
  (b.nestEnd order act).nestEnd order tab

/-- The request of `del_action`. -/
def delRequest (kind : String) (index : BitVec 32) : MessageBuilder :=
  indexRequest order RTM_DELACTION (NLM_F_REQUEST ||| NLM_F_ACK) kind index

/-- The request of `get_action`. -/
def getRequest (kind : String) (index : BitVec 32) : MessageBuilder :=
  indexRequest order RTM_GETACTION NLM_F_REQUEST kind index

/-- The request of `dump_actions`. -/
def dumpRequest (kind : String) : MessageBuilder :=
  let b := begun order RTM_GETACTION (NLM_F_REQUEST ||| NLM_F_DUMP)
  let tab := b.buf.length
  let b := b.nestStart order TCA_ACT_TAB
  let act := b.buf.length
  let b := b.nestStart order 1
  let b := if kind = "" then b else b.appendAttr order TCA_ACT_KIND (asBytes kind)
  (b.nestEnd order act).nestEnd order tab

end Requests

/-- A shared action as the connection reads it. -/
structure ActionMessage where
  kind : String
  index : BitVec 32
  optionsRaw : List UInt8

section Replies

variable (order : ByteOrder)

/-- `action_attr_slice`: what is behind the two headers. -/
def actionAttrSlice (msg : List UInt8) : Option (List UInt8) :=
  let start := NLMSG_HDRLEN + TcMsg.SIZE
  if msg.length < start then none else some (msg.drop start)

/-- `next_nla` is the step of the attribute iterator, so that its walks are
lists of attributes. -/
def nlas (input : List UInt8) : List Attribute :=
  attrIter order input

/-- What has been read of an action. -/
structure ActionParts where
  kind : Option String
  index : BitVec 32
  optionsRaw : List UInt8

/-- The index in the first attribute of an action's options. -/
def embeddedIndex (options : List UInt8) : Option (BitVec 32) :=
  match nextAttr order options with
  | some ((_, parms), _) => if 4 ≤ parms.length then some (readU32 order (parms.take 4)) else none
  | none => none

def ActionParts.read (parts : ActionParts) (attr : Attribute) :
    ActionParts :=
  if attr.1 = TCA_ACT_KIND then
    { parts with kind := some (Genl.fromUtf8Lossy (attr.2.takeWhile (· != 0))) }
  else if attr.1 = TCA_ACT_INDEX ∧ 4 ≤ attr.2.length then
    { parts with index := readU32 order (attr.2.take 4) }
  else if attr.1 = TCA_ACT_OPTIONS then
    { parts with
      optionsRaw := attr.2
      index := if parts.index = 0 then (embeddedIndex order attr.2).getD 0 else parts.index }
  else
    parts

/-- `parse_one_action`. -/
def parseOneAction (slot : List UInt8) : Option ActionMessage :=
  let parts := (nlas order slot).foldl (ActionParts.read order)
    { kind := none, index := 0, optionsRaw := [] }
  parts.kind.map fun kind => { kind := kind, index := parts.index, optionsRaw := parts.optionsRaw }

/-- `parse_action_messages`. -/
def parseActionMessages (msg : List UInt8) : List ActionMessage :=
  match actionAttrSlice msg with
  | none => []
  | some attrs =>
      ((nlas order attrs).filter fun attr => attr.1 = TCA_ACT_TAB).flatMap
        fun tab => (nlas order tab.2).filterMap fun slot => parseOneAction order slot.2

end Replies

/-!
## The kernel's actions

The kernel keeps a table of actions and reads requests behind a header of four
bytes.  A request without the attribute for the table of actions is refused, a
dump without it is empty.
-/

/-- The length of the header in the kernel's messages of actions. -/
def TCAMSG_LEN : Nat := 4

/-- An action of the kernel's table: its kind, its index, and its options as
they are dumped. -/
structure Entry where
  kind : List UInt8
  index : BitVec 32
  options : List UInt8
  deriving DecidableEq

def Entry.isNamed (kind : List UInt8) (index : BitVec 32) (entry : Entry) :
    Bool :=
  entry.kind == kind && entry.index == index

/-- How the kernel's modules make an action of options: an error, or an entry
whose index is not in use. -/
structure Modules where
  create : List Entry → List UInt8 → List UInt8 → Except Nat Entry
  sound : ∀ {table kind options entry}, create table kind options = .ok entry → entry.kind = kind ∧
        ∀ other ∈ table, other.isNamed kind entry.index = false

section Reading

variable (order : ByteOrder)

/-- The slots in a request's table of actions. -/
def requestSlots (body : List UInt8) : Option (List (List Attribute)) :=
  (lastOf (attrIter order (body.drop TCAMSG_LEN)) TCA_ACT_TAB).map fun tab =>
    (attrIter order tab).map fun slot => attrIter order slot.2

/-- The kind that a slot names; a terminator may end it. -/
def slotKind (slot : List Attribute) : Option (List UInt8) :=
  (lastOf slot TCA_ACT_KIND).map fun kind => kind.takeWhile (· != 0)

def slotIndex (slot : List Attribute) : Option (BitVec 32) :=
  (lastOf slot TCA_ACT_INDEX).bind fun index =>
    if index.length < 4 then none else some (readU32 order index)

/-- The table after the actions of some slots have been created. -/
def createAll (modules : Modules) : List Entry → List (List Attribute) → Except Nat (List Entry)
  | table, [] => .ok table
  | table, slot :: rest =>
      match slotKind slot with
      | none => .error EINVAL
      | some kind => do
          let options := (lastOf slot TCA_ACT_OPTIONS).getD []
          let entry ← modules.create table kind options
          createAll modules (table ++ [entry]) rest

def findEntry (table : List Entry) (slot : List Attribute) : Except Nat Entry :=
  match slotKind slot, slotIndex order slot with
  | some kind, some index =>
      match table.find? (Entry.isNamed kind index) with
      | some entry => .ok entry
      | none => .error ENOENT
  | _, _ => .error EINVAL

/-- The kernel's answer to `RTM_NEWACTION`. -/
def kernelNew (modules : Modules) (table : List Entry) (body : List UInt8) :
    Except Nat (List Entry) :=
  match requestSlots order body with
  | none => .error EINVAL
  | some slots => createAll modules table slots

/-- The entries that a request names. -/
def kernelFind (table : List Entry) (body : List UInt8) : Except Nat (List Entry) :=
  match requestSlots order body with
  | none => .error EINVAL
  | some slots => slots.mapM (findEntry order table)

def dumpKind (body : List UInt8) : Option (List UInt8) := do
  let slots ← requestSlots order body
  let slot ← slots.head?
  slotKind slot

/-- The entries of a dump. -/
def kernelDump (table : List Entry) (body : List UInt8) : List Entry :=
  match dumpKind order body with
  | none => []
  | some kind => table.filter fun entry => entry.kind == kind

def entriesMessage (entries : List Entry) : List UInt8 :=
  let slots := entries.zipIdx.map fun entry =>
    (entry.2 + 1, encodeAll order
        [(TCA_ACT_KIND, entry.1.kind ++ [0]), (TCA_ACT_OPTIONS, entry.1.options)])
  let body := List.replicate TCAMSG_LEN 0 ++
    encodeAll order [(TCA_ACT_TAB, encodeAll order slots)]
  NlMsgHdr.asBytes order
      { nlmsgLen := NLMSG_HDRLEN + body.length
        nlmsgType := RTM_GETACTION
        nlmsgFlags := 0
        nlmsgSeq := 0
        nlmsgPid := 0 } ++
    body

end Reading

/-- `Error::is_not_found`, as far as the kernel's errors go. -/
def isNotFound : Error → Bool
  | .kernel errno _ _ => errno == ENOENT || errno == ENODEV
  | _ => false

/-- The kernel's error among those of the connection; its text is left out. -/
def ofErrno (errno : Nat) : Error :=
  .kernel errno none none

namespace Connection

variable (order : ByteOrder)

/-- What the kernel reads of a request, behind its header. -/
def body (request : MessageBuilder) : List UInt8 :=
  request.buf.drop NLMSG_HDRLEN

/-- `add_action`. -/
def addAction (modules : Modules) (table : List Entry) (action : ActionConfig) :
    List Entry × Except Error Unit :=
  match addRequest order action with
  | .error error => (table, .error error)
  | .ok request =>
      match kernelNew order modules table (body request) with
      | .error errno => (table, .error (ofErrno errno))
      | .ok table => (table, .ok ())

/-- `del_action`. -/
def delAction (table : List Entry) (kind : String) (index : BitVec 32) :
    List Entry × Except Error Unit :=
  match kernelFind order table (body (delRequest order kind index)) with
  | .error errno => (table, .error (ofErrno errno))
  | .ok entries => (table.filter fun entry => !entries.contains entry, .ok ())

/-- `get_action`. -/
def getAction (table : List Entry) (kind : String) (index : BitVec 32) :
    Except Error (Option ActionMessage) :=
  match kernelFind order table (body (getRequest order kind index)) with
  | .ok entries => .ok (parseActionMessages order (entriesMessage order entries)).head?
  | .error errno => if isNotFound (ofErrno errno) then .ok none else .error (ofErrno errno)

/-- `dump_actions`; the kernel sends no message where there is no entry. -/
def dumpActions (table : List Entry) (kind : String) : Except Error (List ActionMessage) :=
  match kernelDump order table (body (dumpRequest order kind)) with
  | [] => .ok []
  | entries => .ok (parseActionMessages order (entriesMessage order entries))

end Connection

/-- A call of the connection. -/
inductive Call where
  | addAction (action : ActionConfig)
  | delAction (kind : String) (index : BitVec 32)
  | getAction (kind : String) (index : BitVec 32)
  | dumpActions (kind : String)

namespace Call

variable (order : ByteOrder) (modules : Modules)

/-- The kernel's table behind a call. -/
def next (table : List Entry) : Call → List Entry
  | .addAction action => (Connection.addAction order modules table action).1
  | .delAction kind index => (Connection.delAction order table kind index).1
  | .getAction _ _ | .dumpActions _ => table

/-- The calls of a run, each with the table that it meets. -/
def visits : List Entry → List Call → List (List Entry × Call)
  | _, [] => []
  | table, call :: rest => (table, call) :: visits (call.next order modules table) rest

/-- The entries of a kind; the empty kind stands for all. -/
def ofKind (table : List Entry) (kind : String) : List Entry :=
  table.filter fun entry => kind == "" || entry.kind == asBytes kind

/-- What a message says of an entry. -/
def Describes (entry : Entry) (message : ActionMessage) : Prop :=
  entry.kind = asBytes message.kind ∧ entry.index = message.index

/-- A call does what it is for: an action is added unless its own builder
refuses it, a dump returns the entries of a kind, an entry is returned if it is
there, and it alone is deleted. -/
def DoesItsJob (table : List Entry) : Call → Prop
  | .addAction action =>
      let (table', result) := Connection.addAction order modules table action
      (∃ error, addRequest order action = .error error ∧ result = .error error ∧ table' = table) ∨
        (result = .ok () ∧ ∃ entry, entry.kind = asBytes action.kind ∧
            List.Perm table' (entry :: table))
  | .delAction kind index =>
      let (table', result) := Connection.delAction order table kind index
      (table.any (Entry.isNamed (asBytes kind) index) → result = .ok ()) ∧ table' =
          table.filter fun entry => !entry.isNamed (asBytes kind) index
  | .getAction kind index =>
      match table.find? (Entry.isNamed (asBytes kind) index) with
      | some entry =>
          ∃ message, Connection.getAction order table kind index = .ok (some message) ∧
              Describes entry message
      | none => Connection.getAction order table kind index = .ok none
  | .dumpActions kind =>
      ∃ messages, Connection.dumpActions order table kind = .ok messages ∧
          List.Forall₂ Describes (ofKind table kind) messages

/-- The calls whose requests need not be understood: the action is refused by
its own builder, the entry to delete is not there, or there is no entry to
dump. -/
def Idle (table : List Entry) : Call → Prop
  | .addAction action => ∃ error, addRequest order action = .error error
  | .delAction kind index => ∀ entry ∈ table, entry.isNamed (asBytes kind) index = false
  | .getAction _ _ => False
  | .dumpActions kind => ofKind table kind = []

end Call

/-!
## No request is understood

Behind the kernel's header of four bytes a request has sixteen zero bytes, where
the kernel looks for the first attribute.  So no request has a table of actions:
nothing is added or deleted, a lookup fails and a dump is empty.
-/

section Written

variable (order : ByteOrder)

/-- The header of a message and the header behind it. -/
def start (msgType flags : Nat) : List UInt8 :=
  (NlMsgHdr.new msgType flags).asBytes order ++ List.replicate 20 0

theorem start_length (msgType flags : Nat) : (start order msgType flags).length = 36 := by
  rw [start, length_append, asBytes_length, length_replicate]

theorem begun_buf (msgType flags : Nat) :
    (begun order msgType flags).buf = start order msgType flags := by
  have length := start_length order msgType flags
  have unpadded : padding (start order msgType flags).length = [] := by
    rw [length]
    decide
  rw [begun, MessageBuilder.appendBytes, TcMsg.asBytes_default]
  change start order msgType flags ++ padding (start order msgType flags).length = _
  rw [unpadded, List.append_nil]

variable {written : List UInt8} {builder : MessageBuilder}

theorem prefix_nestStart (begins : written <+: builder.buf) (attrType : Nat) :
    written <+: (builder.nestStart order attrType).buf :=
  begins.trans (prefix_append _ _)

theorem prefix_appendAttr (begins : written <+: builder.buf) (attrType : Nat) (data : List UInt8) :
    written <+: (builder.appendAttr order attrType data).buf := by
  rw [MessageBuilder.appendAttr]
  simp only [List.append_assoc]
  exact begins.trans (prefix_append _ _)

theorem prefix_nestEnd (begins : written <+: builder.buf) {offset : Nat}
    (behind : written.length ≤ offset) : written <+: (builder.nestEnd order offset).buf := by
  have inFront : written <+: builder.buf.take offset := prefix_take_iff.mpr ⟨begins, behind⟩
  rw [MessageBuilder.nestEnd]
  simp only [List.append_assoc]
  exact inFront.trans (prefix_append _ _)

theorem requestSlots_of_prefix {msgType flags : Nat} {request : MessageBuilder}
    (begins : start order msgType flags <+: request.buf) :
    requestSlots order (Connection.body request) = none := by
  obtain ⟨rest, isBuf⟩ := begins
  have behind : (Connection.body request).drop TCAMSG_LEN = List.replicate 16 0 ++ rest := by
    have headers : (start order msgType flags ++ rest).drop NLMSG_HDRLEN =
          List.replicate 20 0 ++ rest := by
      rw [start, List.append_assoc]
      exact drop_left' (asBytes_length order _)
    rw [Connection.body, ← isBuf, headers]
    rfl
  have noLength : NlAttr.fromBytes order (List.replicate 16 0 ++ rest) =
        some { nlaLen := 0, nlaType := 0 } := by
    cases order <;> rfl
  have none : nextAttr order (List.replicate 16 0 ++ rest) = none := by
    rw [nextAttr, noLength]
    rfl
  rw [requestSlots, behind, attrIter_of_none none]
  rfl

theorem prefix_begun (msgType flags : Nat) :
    start order msgType flags <+: (begun order msgType flags).buf := by
  exact (begun_buf order msgType flags).symm ▸ prefix_rfl

theorem prefix_addRequest {action : ActionConfig} {request : MessageBuilder}
    (written : addRequest order action = .ok request) :
    start order RTM_NEWACTION (NLM_F_REQUEST ||| NLM_F_ACK ||| NLM_F_CREATE) <+: request.buf := by
  have inFront := prefix_begun order RTM_NEWACTION (NLM_F_REQUEST ||| NLM_F_ACK ||| NLM_F_CREATE)
  rw [addRequest] at written
  generalize begun order RTM_NEWACTION
    (NLM_F_REQUEST ||| NLM_F_ACK ||| NLM_F_CREATE) = b at inFront written
  have inTab := prefix_nestStart order inFront TCA_ACT_TAB
  have inSlot := prefix_nestStart order inTab 1
  have behindKind := prefix_appendAttr order inSlot TCA_ACT_KIND (asBytes action.kind)
  have inOptions := prefix_nestStart order behindKind TCA_ACT_OPTIONS
  generalize isBuilder :
    (((b.nestStart order TCA_ACT_TAB).nestStart order 1).appendAttr order
      TCA_ACT_KIND (asBytes action.kind)).nestStart order TCA_ACT_OPTIONS =
    opened at inOptions written
  cases isOptions : action.writeOptions opened with
  | error error =>
      rw [isOptions] at written
      cases written
  | ok next =>
      rw [isOptions] at written
      cases written
      have appended := inOptions.trans (action.appends opened next isOptions)
      exact prefix_nestEnd order
        (prefix_nestEnd order (prefix_nestEnd order appended behindKind.length_le) inTab.length_le)
        inFront.length_le

theorem prefix_indexRequest (msgType flags : Nat) (kind : String) (index : BitVec 32) :
    start order msgType flags <+: (indexRequest order msgType flags kind index).buf := by
  have inFront := prefix_begun order msgType flags
  have inTab := prefix_nestStart order inFront TCA_ACT_TAB
  have inSlot := prefix_nestStart order inTab 1
  have behindKind := prefix_appendAttr order inSlot TCA_ACT_KIND (asBytes kind)
  have behindIndex := prefix_appendAttr order behindKind TCA_ACT_INDEX (order.toBytes 4 index.toNat)
  exact prefix_nestEnd order (prefix_nestEnd order behindIndex inTab.length_le) inFront.length_le

theorem prefix_dumpRequest (kind : String) :
    start order RTM_GETACTION (NLM_F_REQUEST ||| NLM_F_DUMP) <+: (dumpRequest order kind).buf := by
  have inFront := prefix_begun order RTM_GETACTION (NLM_F_REQUEST ||| NLM_F_DUMP)
  have inTab := prefix_nestStart order inFront TCA_ACT_TAB
  have inSlot := prefix_nestStart order inTab 1
  rw [dumpRequest]
  by_cases all : kind = ""
  · simp only [if_pos all]
    exact prefix_nestEnd order (prefix_nestEnd order inSlot inTab.length_le) inFront.length_le
  · have behindKind := prefix_appendAttr order inSlot TCA_ACT_KIND (asBytes kind)
    simp only [if_neg all]
    exact prefix_nestEnd order (prefix_nestEnd order behindKind inTab.length_le) inFront.length_le

end Written

section Answered

variable (order : ByteOrder)

theorem addAction_eq (modules : Modules) (table : List Entry) (action : ActionConfig) :
    Connection.addAction order modules table action =
      (table,
        match addRequest order action with
        | .error error => .error error
        | .ok _ => .error (ofErrno EINVAL)) := by
  rw [Connection.addAction]
  cases written : addRequest order action with
  | error error => rfl
  | ok request =>
      have notRead := requestSlots_of_prefix order (prefix_addRequest order written)
      dsimp only
      rw [kernelNew, notRead]

variable (table : List Entry)

theorem kernelFind_indexRequest (msgType flags : Nat) (kind : String) (index : BitVec 32) :
    kernelFind order table (Connection.body (indexRequest order msgType flags kind index)) =
      .error EINVAL := by
  rw [kernelFind, requestSlots_of_prefix order (prefix_indexRequest order msgType flags kind index)]

theorem delAction_eq (kind : String) (index : BitVec 32) :
    Connection.delAction order table kind index = (table, .error (ofErrno EINVAL)) := by
  rw [Connection.delAction, delRequest, kernelFind_indexRequest]

theorem getAction_eq (kind : String) (index : BitVec 32) :
    Connection.getAction order table kind index = .error (ofErrno EINVAL) := by
  rw [Connection.getAction, getRequest, kernelFind_indexRequest]
  rfl

theorem dumpActions_eq (kind : String) : Connection.dumpActions order table kind = .ok [] := by
  have noKind : dumpKind order (Connection.body (dumpRequest order kind)) = none := by
    rw [dumpKind, requestSlots_of_prefix order (prefix_dumpRequest order kind)]
    rfl
  rw [Connection.dumpActions, kernelDump, noKind]

end Answered

namespace Call

variable (order : ByteOrder) (modules : Modules)

variable (table : List Entry)

theorem next_eq (call : Call) : call.next order modules table = table := by
  cases call with
  | addAction action => rw [next, addAction_eq]
  | delAction kind index => rw [next, delAction_eq]
  | getAction kind index => rfl
  | dumpActions kind => rfl

/-- A call does its job exactly when there is nothing to do. -/
theorem doesItsJob_iff (call : Call) :
    call.DoesItsJob order modules table ↔ call.Idle order table := by
  cases call with
  | addAction action =>
      rw [DoesItsJob, Idle, addAction_eq]
      cases written : addRequest order action with
      | error error => refine iff_of_true (Or.inl ⟨error, rfl, rfl, rfl⟩) ⟨error, rfl⟩
      | ok request =>
          refine iff_of_false ?_ ?_
          · rintro (⟨error, refused, _⟩ | ⟨added, _⟩)
            · cases refused
            · cases added
          · rintro ⟨error, refused⟩
            cases refused
  | delAction kind index =>
      rw [DoesItsJob, Idle, delAction_eq]
      constructor
      · rintro ⟨_, same⟩
        have kept := filter_eq_self.mp same.symm
        intro entry member
        simpa using kept entry member
      · intro absent
        refine ⟨fun found => ?_, ?_⟩
        · obtain ⟨entry, member, named⟩ := any_eq_true.mp found
          rw [absent entry member] at named
          cases named
        · refine (filter_eq_self.mpr fun entry member => ?_).symm
          rw [absent entry member]
          rfl
  | getAction kind index =>
      rw [DoesItsJob, Idle, getAction_eq, iff_false]
      cases table.find? (Entry.isNamed (asBytes kind) index) with
      | some entry =>
          rintro ⟨_, found, _⟩
          cases found
      | none =>
          intro found
          cases found
  | dumpActions kind =>
      rw [DoesItsJob, Idle, dumpActions_eq]
      constructor
      · rintro ⟨messages, same, described⟩
        cases same
        exact forall₂_nil_right_iff.mp described
      · intro empty
        exact ⟨[], rfl, by rw [empty]; exact .nil⟩

theorem visits_eq (calls : List Call) :
    visits order modules table calls = calls.map fun call => (table, call) := by
  induction calls with
  | nil => rfl
  | cons call rest ih =>
      rw [visits, next_eq, ih]
      rfl

end Call

/-- In a run of calls each does its job exactly when none has anything to do in
the kernel's table. -/
theorem calls_doTheirJob_iff (order : ByteOrder) (modules : Modules) (table : List Entry)
    (calls : List Call) :
    (∀ visit ∈ Call.visits order modules table calls, visit.2.DoesItsJob order modules visit.1) ↔
      ∀ call ∈ calls, call.Idle order table := by
  rw [Call.visits_eq, forall_mem_map]
  exact forall₂_congr fun call _ => Call.doesItsJob_iff order modules table call

/-!
## An action of the kind gact
-/

/-- A `gact` action: what it does, and with what probability something else. -/
structure GactAction where
  action : BitVec 32
  probType : BitVec 16
  probVal : BitVec 16
  probAction : BitVec 32

namespace GactAction

variable (order : ByteOrder)

/-- `write_options`: `TcGact`, and `TcGactP` for a probability. -/
def writeOptions (gact : GactAction) (builder : MessageBuilder) : MessageBuilder :=
  let builder := builder.appendAttr order TCA_GACT_PARMS
    (List.replicate 8 0 ++ order.toBytes 4 gact.action.toNat ++ List.replicate 8 0)
  if gact.probType = PGACT_NONE then
    builder
  else
    builder.appendAttr order TCA_GACT_PROB (order.toBytes 2 gact.probType.toNat ++
      order.toBytes 2 gact.probVal.toNat ++ order.toBytes 4 gact.probAction.toNat)

def config (gact : GactAction) : ActionConfig where
  kind := "gact"
  writeOptions builder := .ok (gact.writeOptions order builder)
  appends builder next written := by
    cases written
    rw [GactAction.writeOptions]
    have parms := prefix_appendAttr order (List.prefix_refl builder.buf) TCA_GACT_PARMS
    split
    · exact parms _
    · exact prefix_appendAttr order (parms _) TCA_GACT_PROB _

/-- `GactAction::drop`. -/
def drop : GactAction where
  action := TC_ACT_SHOT
  probType := PGACT_NONE
  probVal := 0
  probAction := TC_ACT_OK

end GactAction

/-- The kernel's module for one action of the kind. -/
def gactModule : Modules where
  create table kind options :=
    if kind = asBytes "gact" ∧ ∀ other ∈ table, other.isNamed kind 1 = false then
      .ok { kind := kind, index := 1, options := options }
    else
      .error ENOENT
  sound {table kind options entry} created := by
    split at created
    · rename_i isFree
      cases created
      exact ⟨rfl, isFree.2⟩
    · cases created

/-- A `gact` action that is in the kernel's table. -/
def gactOne : Entry where
  kind := asBytes "gact"
  index := 1
  options := []

/-- A `gact` action is not added, and one that is there is not found or listed. -/
theorem gactOne_notFound :
    (Connection.addAction .little gactModule [] (GactAction.drop.config .little) =
        ([], .error (ofErrno EINVAL)) ∧
      Connection.getAction .little [gactOne] "gact" 1 = .error (ofErrno EINVAL) ∧
      Connection.dumpActions .little [gactOne] "gact" = .ok []) ∧
    ¬ (Call.addAction (GactAction.drop.config .little)).DoesItsJob .little gactModule [] ∧
      ¬ (Call.getAction "gact" 1).DoesItsJob .little gactModule [gactOne] ∧
      ¬ (Call.dumpActions "gact").DoesItsJob .little gactModule [gactOne] := by
  refine ⟨⟨addAction_eq .little _ _ _, getAction_eq .little _ _ _, dumpActions_eq .little _ _⟩,
    ?_, ?_, ?_⟩
  · rw [Call.doesItsJob_iff]
    rintro ⟨_, refused⟩
    cases refused
  · rw [Call.doesItsJob_iff]
    exact id
  · rw [Call.doesItsJob_iff, Call.Idle]
    decide

end Nlink.SharedAction
