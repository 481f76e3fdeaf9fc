import Nlink.GenlRequest
import Nlink.NetlinkAttrCut

namespace Nlink.Ematches

open Foundation Netlink Nftables List Writer Attrs

/-!
# Extended matches of a basic filter

A basic filter holds matches that are joined by and and or.  They are written as
a list in which each match carries its relation to the next one, and the kernel
evaluates the list from left to right.  The host is little-endian, as the packed
bytes of a comparison assume.
-/

def TCA_BASIC_CLASSID : Nat := 1
def TCA_BASIC_EMATCHES : Nat := 2

def TCA_EMATCH_TREE_HDR : Nat := 1
def TCA_EMATCH_TREE_LIST : Nat := 2

def TCF_EM_PROG_TC : BitVec 16 := 0

def TCF_EM_REL_AND : BitVec 16 := 1
def TCF_EM_REL_OR : BitVec 16 := 2
def TCF_EM_INVERT : BitVec 16 := 4

def TCF_EM_CMP : BitVec 16 := 1
def TCF_EM_U32 : BitVec 16 := 3

def TCF_EM_CMP_TRANS : BitVec 8 := 1

/-- Comparison operator. -/
inductive CmpOp where
  | eq
  | gt
  | lt

/-- Layer that an offset is relative to. -/
inductive CmpLayer where
  | link
  | network
  | transport

/-- Width of the packet field that is compared. -/
inductive CmpAlign where
  | u8
  | u16
  | u32

/-- Relation of a match to the next one. -/
inductive EmatchOp where
  | and
  | or

def CmpOp.number : CmpOp → BitVec 8
  | .eq => 0
  | .gt => 1
  | .lt => 2

def CmpLayer.number : CmpLayer → BitVec 8
  | .link => 0
  | .network => 1
  | .transport => 2

def CmpAlign.number : CmpAlign → BitVec 8
  | .u8 => 1
  | .u16 => 2
  | .u32 => 4

def EmatchOp.relation : EmatchOp → BitVec 16
  | .and => TCF_EM_REL_AND
  | .or => TCF_EM_REL_OR

/-- `cmp` match: a packet field against a constant. -/
structure EmatchCmp where
  layer : CmpLayer
  align : CmpAlign
  offset : BitVec 16
  mask : BitVec 32
  value : BitVec 32
  op : CmpOp
  trans : Bool

/-- `u32` match: four bytes of a packet under a mask. -/
structure EmatchU32 where
  mask : BitVec 32
  value : BitVec 32
  offset : BitVec 32

inductive EmatchKind where
  | cmp (cmp : EmatchCmp)
  | u32 (key : EmatchU32)

/-- One entry of a tree. -/
structure Ematch where
  kind : EmatchKind
  op : EmatchOp
  negate : Bool

structure BasicFilter where
  classid : Option (BitVec 32)
  ematches : List Ematch

/-!
## What is written
-/

/-- `TcfEmatchTreeHdr`: the number of matches and the program. -/
def treeHdr : FixedLayout (BitVec 16 × BitVec 16) :=
  let u16 := FixedLayout.number .little 2
  u16.pair u16

/-- `TcfEmatchHdr`: the match's number, its kind, its flags and padding. -/
def ematchHdr : FixedLayout (BitVec 16 × BitVec 16 × BitVec 16 × BitVec 16) :=
  let u16 := FixedLayout.number .little 2
  u16.pair (u16.pair (u16.pair u16))

/-- The kernel's `tcf_em_cmp`: value, mask, offset and two packed bytes. -/
def emCmp : FixedLayout (BitVec 32 × BitVec 32 × BitVec 16 × BitVec 8 × BitVec 8) :=
  let u32 := FixedLayout.number .little 4
  let u8 := FixedLayout.number .little 1
  u32.pair (u32.pair ((FixedLayout.number .little 2).pair (u8.pair u8)))

/-- `TcfEmCmp`: four bytes of padding behind the kernel's structure. -/
def tcfEmCmp : FixedLayout
    ((BitVec 32 × BitVec 32 × BitVec 16 × BitVec 8 × BitVec 8) × BitVec 16 × BitVec 16) :=
  let u16 := FixedLayout.number .little 2
  emCmp.pair (u16.pair u16)

/-- `TcfEmU32`: mask, value and offset. -/
def tcfEmU32 : FixedLayout (BitVec 32 × BitVec 32 × BitVec 32) :=
  let u32 := FixedLayout.number .little 4
  u32.pair (u32.pair u32)

def encodeCmp (c : EmatchCmp) :
    (BitVec 32 × BitVec 32 × BitVec 16 × BitVec 8 × BitVec 8) × BitVec 16 × BitVec 16 :=
  let cmpFlags := if c.trans then TCF_EM_CMP_TRANS else 0
  let alignFlags := cmpFlags <<< 4 ||| (c.align.number &&& 0x0F)
  let layerOpnd := c.op.number <<< 4 ||| (c.layer.number &&& 0x0F)
  ((c.value, c.mask, c.offset, alignFlags, layerOpnd), 0, 0)

namespace Ematch

/-- The flags of a match that is followed by another one or not. -/
def flags (m : Ematch) (followed : Bool) : BitVec 16 :=
  let flags := if m.negate then TCF_EM_INVERT else 0
  if followed then flags ||| m.op.relation else flags

def kindId (m : Ematch) : BitVec 16 :=
  match m.kind with
  | .cmp _ => TCF_EM_CMP
  | .u32 _ => TCF_EM_U32

def body (m : Ematch) : List UInt8 :=
  match m.kind with
  | .cmp c => tcfEmCmp.write (encodeCmp c)
  | .u32 u => tcfEmU32.write (u.mask, u.value, u.offset)

def payload (m : Ematch) (followed : Bool) : List UInt8 :=
  ematchHdr.write (0, m.kindId, m.flags followed, 0) ++ m.body

end Ematch

/-- A match of the list, with its index and the last index. -/
def writeEmatch (last : Nat) (entry : Ematch × Nat) : Writer .little :=
  .attr ((entry.2 + 1) % 65536) (entry.1.payload (decide (entry.2 < last)))

def ematchList (ematches : List Ematch) : Writer .little :=
  .all (ematches.zipIdx.map (writeEmatch (ematches.length - 1)))

def ematchTree (ematches : List Ematch) : Writer .little :=
  .all [
    .attr TCA_EMATCH_TREE_HDR (treeHdr.write (BitVec.ofNat 16 ematches.length, TCF_EM_PROG_TC)),
    .nest TCA_EMATCH_TREE_LIST (ematchList ematches)]

def writeEmatchTree (ematches : List Ematch) : Writer .little :=
  .nest TCA_BASIC_EMATCHES (ematchTree ematches)

namespace BasicFilter

/-- The attributes that `write_options` appends. -/
def options (filter : BasicFilter) : Writer .little :=
  .all [
    .whenSome filter.classid fun classid => .u32 TCA_BASIC_CLASSID classid,
    .when (!filter.ematches.isEmpty) (writeEmatchTree filter.ematches)]

def writeOptions (filter : BasicFilter) (builder : MessageBuilder) :
    Except String MessageBuilder :=
  .ok (filter.options.write builder)

end BasicFilter

/-!
## What a match says
-/

/-- What is read of a packet: a field at an offset from the start of a layer,
transformed or not, and four bytes at an offset from the network header.  There is
nothing behind the end of the packet. -/
structure Packet where
  field : CmpLayer → BitVec 16 → CmpAlign → Bool → Option (BitVec 32)
  word : BitVec 32 → Option (BitVec 32)

def CmpOp.compare (op : CmpOp) (found value : BitVec 32) : Bool :=
  match op with
  | .eq => found = value
  | .gt => value < found
  | .lt => found < value

def EmatchCmp.holds (packet : Packet) (c : EmatchCmp) : Bool :=
  match packet.field c.layer c.offset c.align c.trans with
  | some found => c.op.compare (if c.mask = 0 then found else found &&& c.mask) c.value
  | none => false

def EmatchU32.holds (packet : Packet) (u : EmatchU32) : Bool :=
  match packet.word u.offset with
  | some found => (found ^^^ u.value) &&& u.mask = 0
  | none => false

def Ematch.holds (packet : Packet) (m : Ematch) : Bool :=
  let holds :=
    match m.kind with
    | .cmp c => c.holds packet
    | .u32 u => u.holds packet
  m.negate ^^ holds

def EmatchOp.join (op : EmatchOp) (result later : Bool) : Bool :=
  match op with
  | .and => result && later
  | .or => result || later

/-- The right-nested expression over a list of matches. -/
def expression (packet : Packet) : List Ematch → Bool
  | [] => true
  | [m] => m.holds packet
  | m :: rest => m.op.join (m.holds packet) (expression packet rest)

/-!
## The kernel
-/

namespace Kernel

/-- `tcf_em_cmp` with its bit fields. -/
structure EmCmp where
  val : BitVec 32
  mask : BitVec 32
  off : BitVec 16
  align : Nat
  flags : Nat
  layer : Nat
  opnd : Nat

def EmCmp.ofFields : BitVec 32 × BitVec 32 × BitVec 16 × BitVec 8 × BitVec 8 → EmCmp
  | (val, mask, off, first, second) =>
      ⟨val, mask, off, first.toNat % 16, first.toNat / 16, second.toNat % 16, second.toNat / 16⟩

def layerOf : Nat → Option CmpLayer
  | 0 => some .link
  | 1 => some .network
  | 2 => some .transport
  | _ => none

def alignOf : Nat → Option CmpAlign
  | 1 => some .u8
  | 2 => some .u16
  | 4 => some .u32
  | _ => none

/-- `em_cmp_match`; a mask of zero is none. -/
def EmCmp.holds (packet : Packet) (cmp : EmCmp) : Bool :=
  match layerOf cmp.layer, alignOf cmp.align with
  | some layer, some align =>
      match packet.field layer cmp.off align (cmp.flags % 2 = 1) with
      | some found =>
          let found := if cmp.mask = 0 then found else found &&& cmp.mask
          match cmp.opnd with
          | 0 => found = cmp.val
          | 1 => cmp.val < found
          | 2 => found < cmp.val
          | _ => false
      | none => false
  | _, _ => false

/-- `tc_u32_key`: mask, value, offset and mask of the offset. -/
def u32Key : FixedLayout (BitVec 32 × BitVec 32 × BitVec 32 × BitVec 32) :=
  let be32 := FixedLayout.number .big 4
  let int := FixedLayout.number .little 4
  be32.pair (be32.pair (int.pair int))

/-- The data of a match, by its kind. -/
inductive Test where
  | cmp (cmp : EmCmp)
  | u32 (mask value offset : BitVec 32)

def Test.holds (packet : Packet) : Test → Bool
  | .cmp fields => fields.holds packet
  | .u32 mask value offset =>
      match packet.word offset with
      | some found => (found ^^^ value) &&& mask = 0
      | none => false

/-- A match of a tree. -/
structure Match where
  flags : BitVec 16
  test : Test

/-- `tcf_em_match`. -/
def Match.result (packet : Packet) (m : Match) : Bool :=
  (m.flags &&& TCF_EM_INVERT != 0) ^^ m.test.holds packet

/-- `tcf_em_early_end`. -/
def Match.earlyEnd (m : Match) (result : Bool) : Bool :=
  m.flags &&& (TCF_EM_REL_AND ||| TCF_EM_REL_OR) = 0 ||
    !result && m.flags &&& TCF_EM_REL_AND != 0 || result && m.flags &&& TCF_EM_REL_OR != 0

/-- `__tcf_em_tree_match`, with the result so far. -/
def treeLoop (packet : Packet) (result : Bool) : List Match → Bool
  | [] => result
  | m :: rest =>
      if m.earlyEnd (m.result packet) then
        m.result packet
      else
        treeLoop packet (m.result packet) rest

/-- `tcf_em_tree_match`; an empty tree matches. -/
def treeMatch (packet : Packet) (tree : List Match) : Bool :=
  tree.isEmpty || treeLoop packet false tree

/-- `tcf_em_validate`: a match whose data are long enough. -/
def validate (bytes : List UInt8) : Option Match := do
  let (_, kind, flags, _) ← ematchHdr.fromPrefix? bytes
  let data := bytes.drop ematchHdr.size
  let test ←
    if kind = TCF_EM_CMP then
      (emCmp.fromPrefix? data).map fun fields => .cmp (.ofFields fields)
    else if kind = TCF_EM_U32 then
      (u32Key.fromPrefix? data).map fun (mask, value, offset, _) => .u32 mask value offset
    else
      none
  return ⟨flags, test⟩

/-- The matches of a list, the first of which has this index. -/
def validateFrom : Nat → List Attribute → Option (List Match)
  | _, [] => some []
  | index, attr :: rest =>
      if attr.1 = index + 1 then do
        let m ← validate attr.2
        let later ← validateFrom (index + 1) rest
        return m :: later
      else
        none

/-- `tcf_em_tree_validate` of the attribute's payload; `none` is `EINVAL`. -/
def treeValidate (bytes : List UInt8) : Option (List Match) := do
  let tb := attrIter .little bytes
  let (nmatches, _) ← (lastOf tb TCA_EMATCH_TREE_HDR).bind treeHdr.fromPrefix?
  let list ← lastOf tb TCA_EMATCH_TREE_LIST
  let entries := attrIter .little list
  if entries.length = nmatches.toNat then validateFrom 0 entries else none

/-- `basic_change`: the tree of the options, which is empty if there is none. -/
def basicChange (options : List UInt8) : Option (List Match) :=
  match lastOf (attrIter .little options) TCA_BASIC_EMATCHES with
  | some bytes => treeValidate bytes
  | none => some []

end Kernel

/-- Options are refused before they are sent, or the kernel takes them and a packet
matches as the list says. -/
def Means (filter : BasicFilter) : Prop :=
  ∀ builder : MessageBuilder, 4 ∣ builder.buf.length →
    (∃ error, filter.writeOptions builder = .error error) ∨
      ∃ written tree, filter.writeOptions builder = .ok written ∧
        Kernel.basicChange (written.buf.drop builder.buf.length) = some tree ∧
          ∀ packet, Kernel.treeMatch packet tree = expression packet filter.ematches

/-!
## One match
-/

namespace Ematch

def isCmp (m : Ematch) : Bool :=
  match m.kind with
  | .cmp _ => true
  | .u32 _ => false

def read (m : Ematch) (followed : Bool) : Option Kernel.Match :=
  match m.kind with
  | .cmp c => some ⟨m.flags followed, .cmp (.ofFields (encodeCmp c).1)⟩
  | .u32 _ => none

theorem validate_payload (m : Ematch) (followed : Bool) :
    Kernel.validate (m.payload followed) = m.read followed := by
  have header := ematchHdr.fromPrefix?_write (0, m.kindId, m.flags followed, 0) m.body
  have behind : (ematchHdr.write (0, m.kindId, m.flags followed, 0) ++ m.body).drop
      ematchHdr.size = m.body :=
    drop_left' (ematchHdr.length_write _)
  rw [Kernel.validate, payload, header, behind]
  obtain ⟨kind, op, negate⟩ := m
  cases kind with
  | cmp c =>
      have data : emCmp.fromPrefix? (tcfEmCmp.write (encodeCmp c)) = some (encodeCmp c).1 :=
        emCmp.fromPrefix?_write (encodeCmp c).1 _
      change (do
        let test ← (emCmp.fromPrefix? (tcfEmCmp.write (encodeCmp c))).map fun fields =>
          Kernel.Test.cmp (.ofFields fields)
        some (Kernel.Match.mk (Ematch.flags ⟨.cmp c, op, negate⟩ followed) test)) = _
      rw [data]
      rfl
  | u32 u => rfl

end Ematch

theorem ofFields_encodeCmp (c : EmatchCmp) : Kernel.EmCmp.ofFields (encodeCmp c).1 =
    ⟨c.value, c.mask, c.offset, c.align.number.toNat, c.trans.toNat, c.layer.number.toNat,
      c.op.number.toNat⟩ := by
  have first : (((if c.trans then TCF_EM_CMP_TRANS else 0) <<< 4 |||
      (c.align.number &&& 0x0F)).toNat % 16 = c.align.number.toNat) ∧
        ((if c.trans then TCF_EM_CMP_TRANS else 0) <<< 4 |||
          (c.align.number &&& 0x0F)).toNat / 16 = c.trans.toNat := by
    cases c.align <;> cases c.trans <;> decide
  have second : (c.op.number <<< 4 ||| (c.layer.number &&& 0x0F)).toNat % 16 =
      c.layer.number.toNat ∧
        (c.op.number <<< 4 ||| (c.layer.number &&& 0x0F)).toNat / 16 = c.op.number.toNat := by
    cases c.op <;> cases c.layer <;> decide
  simp only [Kernel.EmCmp.ofFields, encodeCmp, first, second]

theorem holds_encodeCmp (packet : Packet) (c : EmatchCmp) :
    (Kernel.EmCmp.ofFields (encodeCmp c).1).holds packet = c.holds packet := by
  have isLayer : Kernel.layerOf c.layer.number.toNat = some c.layer := by cases c.layer <;> rfl
  have isAlign : Kernel.alignOf c.align.number.toNat = some c.align := by cases c.align <;> rfl
  have isTrans : decide (c.trans.toNat % 2 = 1) = c.trans := by cases c.trans <;> rfl
  simp only [ofFields_encodeCmp, Kernel.EmCmp.holds, isLayer, isAlign, isTrans, EmatchCmp.holds]
  cases packet.field c.layer c.offset c.align c.trans with
  | none => rfl
  | some found => cases c.op <;> rfl

/-!
## The list
-/

namespace Ematch

variable {m : Ematch} {followed : Bool} {found : Kernel.Match}

theorem read_isSome (m : Ematch) (followed : Bool) : (m.read followed).isSome = m.isCmp := by
  rw [read, isCmp]
  cases m.kind <;> rfl

theorem exists_read (isCmp : m.isCmp = true) (followed : Bool) :
    ∃ found, m.read followed = some found := by
  rw [← Option.isSome_iff_exists, m.read_isSome, isCmp]

theorem flags_of_read (isRead : m.read followed = some found) : found.flags = m.flags followed := by
  rw [read] at isRead
  cases kind : m.kind with
  | cmp c =>
      rw [kind] at isRead
      cases isRead
      rfl
  | u32 u =>
      rw [kind] at isRead
      cases isRead

theorem result_of_read (isRead : m.read followed = some found) (packet : Packet) :
    found.result packet = m.holds packet := by
  have inverted : (m.flags followed &&& TCF_EM_INVERT != 0) = m.negate := by
    rw [flags]
    cases m.negate <;> cases followed <;> cases m.op <;> rfl
  rw [Kernel.Match.result, flags_of_read isRead, inverted, holds]
  rw [read] at isRead
  cases kind : m.kind with
  | cmp c =>
      rw [kind] at isRead
      cases isRead
      exact congrArg (m.negate ^^ ·) (holds_encodeCmp packet c)
  | u32 u =>
      rw [kind] at isRead
      cases isRead

theorem earlyEnd_last (isRead : m.read false = some found) (result : Bool) :
    found.earlyEnd result = true := by
  rw [Kernel.Match.earlyEnd, flags_of_read isRead, flags]
  cases m.negate <;> cases m.op <;> cases result <;> rfl

/-- A match ends the evaluation early with the result that joins it to the rest. -/
theorem join_of_earlyEnd (isRead : m.read true = some found) (result later : Bool) :
    (if found.earlyEnd result then result else later) = m.op.join result later := by
  rw [Kernel.Match.earlyEnd, flags_of_read isRead, flags]
  cases m.negate <;> cases m.op <;> cases result <;> rfl

end Ematch

/-- The entries of a list, numbered from an index, as they are found. -/
def entriesFrom (last index : Nat) (ematches : List Ematch) : List Attribute :=
  (ematches.zipIdx index).map fun entry => (entry.2 + 1, entry.1.payload (decide (entry.2 < last)))

theorem entriesFrom_cons (last index : Nat) (m : Ematch) (rest : List Ematch) :
    entriesFrom last index (m :: rest) =
      (index + 1, m.payload (decide (index < last))) :: entriesFrom last (index + 1) rest :=
  rfl

variable {last index : Nat}

theorem validateFrom_cons {m : Ematch} {followed : Bool}
    {found : Kernel.Match} (isRead : m.read followed = some found)
    (here : decide (index < last) = followed) (later : List Attribute) :
    Kernel.validateFrom index ((index + 1, m.payload (decide (index < last))) :: later) =
      (Kernel.validateFrom (index + 1) later).map (found :: ·) := by
  rw [Kernel.validateFrom, if_pos rfl, m.validate_payload, here, isRead]
  cases Kernel.validateFrom (index + 1) later <;> rfl

theorem validateFrom_entries {m : Ematch} {rest : List Ematch}
    (isLast : index + rest.length = last) (cmps : ∀ entry ∈ m :: rest, entry.isCmp = true) :
    ∃ first later, Kernel.validateFrom index (entriesFrom last index (m :: rest)) =
        some (first :: later) ∧
      ∀ packet result, Kernel.treeLoop packet result (first :: later) =
        expression packet (m :: rest) := by
  induction rest generalizing index m with
  | nil =>
      obtain ⟨found, isFound⟩ := Ematch.exists_read (cmps m mem_cons_self) false
      have here : decide (index < last) = false := decide_eq_false (Nat.not_lt.mpr isLast.ge)
      refine ⟨found, [], validateFrom_cons isFound here [], fun packet result => ?_⟩
      rw [Kernel.treeLoop, if_pos (Ematch.earlyEnd_last isFound _),
        Ematch.result_of_read isFound, expression]
  | cons next rest ih =>
      obtain ⟨found, isFound⟩ := Ematch.exists_read (cmps m mem_cons_self) true
      rw [length_cons] at isLast
      have here : decide (index < last) = true := decide_eq_true (by omega)
      obtain ⟨first, later, isLater, evaluated⟩ :=
        @ih (index + 1) next (by omega) fun entry member => cmps entry (mem_cons_of_mem _ member)
      refine ⟨found, first :: later, ?_, fun packet result => ?_⟩
      · rw [entriesFrom_cons, validateFrom_cons isFound here, isLater]
        rfl
      · rw [Kernel.treeLoop, evaluated, Ematch.join_of_earlyEnd isFound,
          Ematch.result_of_read isFound]
        rfl

variable {ematches : List Ematch}

theorem isCmp_of_validateFrom
    {tree : List Kernel.Match}
    (validated : Kernel.validateFrom index (entriesFrom last index ematches) = some tree) :
    ∀ m ∈ ematches, m.isCmp = true := by
  induction ematches generalizing index tree with
  | nil => exact forall_mem_nil _
  | cons m rest ih =>
      rw [entriesFrom_cons, Kernel.validateFrom, if_pos rfl, Option.bind_eq_bind,
        Option.bind_eq_some_iff] at validated
      obtain ⟨first, isFirst, validated⟩ := validated
      rw [Option.bind_eq_bind, Option.bind_eq_some_iff] at validated
      obtain ⟨later, isLater, -⟩ := validated
      refine forall_mem_cons.mpr ⟨?_, ih isLater⟩
      rw [Ematch.validate_payload] at isFirst
      rw [← m.read_isSome (decide (index < last)), isFirst]
      rfl

/-!
## The tree
-/

/-- The bytes that a match takes in the list. -/
def Ematch.entrySize (m : Ematch) : Nat :=
  if m.isCmp then 28 else 24

/-- The bytes of the attribute that holds the tree. -/
def BasicFilter.treeSize (filter : BasicFilter) : Nat :=
  16 + (filter.ematches.map Ematch.entrySize).sum

variable (m : Ematch)

theorem Ematch.length_payload (followed : Bool) :
    (m.payload followed).length + 4 = m.entrySize := by
  obtain ⟨kind, op, negate⟩ := m
  rw [payload, length_append, ematchHdr.length_write, body]
  cases kind with
  | cmp c =>
      rw [tcfEmCmp.length_write]
      rfl
  | u32 u =>
      rw [tcfEmU32.length_write]
      rfl

theorem Ematch.dvd_entrySize : 4 ∣ m.entrySize := by
  rw [entrySize]
  split <;> decide

theorem attrs_ematchList (ematches : List Ematch) :
    (ematchList ematches).attrs = ematches.zipIdx.map fun entry =>
      ((entry.2 + 1) % 65536, entry.1.payload (decide (entry.2 < ematches.length - 1))) := by
  rw [ematchList, attrs_all, flatMap_map]
  exact (map_eq_flatMap ..).symm

theorem length_entries (last index : Nat) (ematches : List Ematch) :
    (encodeAll .little ((ematches.zipIdx index).map fun entry =>
      ((entry.2 + 1) % 65536, entry.1.payload (decide (entry.2 < last))))).length =
        (ematches.map Ematch.entrySize).sum := by
  induction ematches generalizing index with
  | nil => rfl
  | cons m rest ih =>
      have later := ih (index + 1)
      have length := m.length_payload (decide (index < last))
      rw [encodeAll] at later
      rw [zipIdx_cons, map_cons, encodeAll, flatMap_cons, length_append, attrBytes_length,
        later, length, nlaAlign_of_dvd m.dvd_entrySize, map_cons, sum_cons]

section Tree

variable (ematches : List Ematch)

theorem length_ematchList : (encodeAll .little (ematchList ematches).attrs).length =
    (ematches.map Ematch.entrySize).sum := by
  rw [attrs_ematchList, length_entries]

theorem dvd_ematchList : 4 ∣ (encodeAll .little (ematchList ematches).attrs).length :=
  (ematchList ematches).appends.aligned

theorem encodeAll_ematchTree : encodeAll .little (ematchTree ematches).attrs =
    attrBytes .little TCA_EMATCH_TREE_HDR (treeHdr.write
      (BitVec.ofNat 16 ematches.length, TCF_EM_PROG_TC)) ++
        attrBytes .little (TCA_EMATCH_TREE_LIST ||| NLA_F_NESTED)
          (encodeAll .little (ematchList ematches).attrs) := by
  change _ ++ (_ ++ []) = _
  rw [List.append_nil]

theorem length_ematchTree : (encodeAll .little (ematchTree ematches).attrs).length =
    12 + (ematches.map Ematch.entrySize).sum := by
  rw [encodeAll_ematchTree, length_append, attrBytes_length, attrBytes_length,
    treeHdr.length_write, nlaAlign_of_dvd
      (Nat.dvd_add (dvd_ematchList ematches) (Nat.dvd_refl 4)), length_ematchList]
  change 8 + _ = _
  omega

theorem length_le_entrySize : ematches.length * 24 ≤ (ematches.map Ematch.entrySize).sum := by
  induction ematches with
  | nil => exact Nat.zero_le _
  | cons m rest ih =>
      have least : 24 ≤ m.entrySize := by
        rw [Ematch.entrySize]
        split <;> omega
      rw [length_cons, Nat.succ_mul, map_cons, sum_cons]
      omega

theorem fits_ematchList : ∀ attr ∈ (ematchList ematches).attrs, attr.Fits := by
  rw [attrs_ematchList]
  intro attr member
  obtain ⟨entry, -, rfl⟩ := mem_map.mp member
  have length := entry.1.length_payload (decide (entry.2 < ematches.length - 1))
  have most : entry.1.entrySize ≤ 28 := by
    rw [Ematch.entrySize]
    split <;> omega
  refine ⟨Nat.mod_lt _ (by decide), ?_⟩
  dsimp only
  rw [NLA_HDRLEN]
  omega

variable {ematches} (fits : 16 + (ematches.map Ematch.entrySize).sum ≤ 65535)

include fits

theorem few_of_fits : ematches.length ≤ 2729 := by
  have least := length_le_entrySize ematches
  omega

theorem attrIter_ematchList : attrIter .little (encodeAll .little (ematchList ematches).attrs) =
    entriesFrom (ematches.length - 1) 0 ematches := by
  have few := few_of_fits fits
  rw [attrIter_encodeAll .little (fits_ematchList ematches), attrs_ematchList, map_map, entriesFrom]
  refine map_congr_left fun entry member => Prod.ext ?_ rfl
  have index := (mem_zipIdx member).2.1
  change (entry.2 + 1) % 65536 % 16384 = entry.2 + 1
  omega

theorem small_ematchTree :
    (ematchTree ematches).Small (12 + (ematches.map Ematch.entrySize).sum) := by
  have list : (ematchList ematches).Small (ematches.map Ematch.entrySize).sum :=
    ⟨(length_ematchList ematches).le, fits_ematchList ematches⟩
  have header : (Writer.attr TCA_EMATCH_TREE_HDR (treeHdr.write
      (BitVec.ofNat 16 ematches.length, TCF_EM_PROG_TC)) : Writer .little).Small 11 :=
    small_attr (by decide) (by rw [treeHdr.length_write]; decide) (by decide)
  exact ⟨(length_ematchTree ematches).le,
    (header.andThen ((list.nest (by omega) (by decide)).andThen (small_nothing 0))).2⟩

theorem treeValidate_written : Kernel.treeValidate (encodeAll .little (ematchTree ematches).attrs) =
    Kernel.validateFrom 0 (entriesFrom (ematches.length - 1) 0 ematches) := by
  have few := few_of_fits fits
  have header : (ematchTree ematches).found TCA_EMATCH_TREE_HDR =
      some (treeHdr.write (BitVec.ofNat 16 ematches.length, TCF_EM_PROG_TC)) := by
    simp [ematchTree, TCA_EMATCH_TREE_HDR, TCA_EMATCH_TREE_LIST]
  have list : (ematchTree ematches).found TCA_EMATCH_TREE_LIST =
      some (encodeAll .little (ematchList ematches).attrs) := by
    simp [ematchTree, TCA_EMATCH_TREE_HDR, TCA_EMATCH_TREE_LIST]
  have isHeader := treeHdr.fromPrefix?_write (BitVec.ofNat 16 ematches.length, TCF_EM_PROG_TC) []
  have count : (entriesFrom (ematches.length - 1) 0 ematches).length =
      (BitVec.ofNat 16 ematches.length).toNat := by
    rw [entriesFrom, length_map, length_zipIdx, BitVec.toNat_ofNat]
    omega
  rw [List.append_nil] at isHeader
  simp only [Kernel.treeValidate, attrIter_payload (small_ematchTree fits),
    lastOf_seen, header, list, Option.bind_eq_bind, Option.bind_some, isHeader,
    attrIter_ematchList fits, if_pos count]

end Tree

namespace BasicFilter

variable (filter : BasicFilter)

theorem fits_classid : ∀ attr ∈ (whenSome filter.classid fun classid =>
    (.u32 TCA_BASIC_CLASSID classid : Writer .little)).attrs, attr.Fits := by
  cases filter.classid with
  | none => exact forall_mem_nil _
  | some classid => exact (small_u32 (by decide) classid (Nat.le_refl 11)).2

variable {filter}

theorem attrIter_options (fits : filter.treeSize ≤ 65535) :
    attrIter .little (encodeAll .little filter.options.attrs) = filter.options.seen := by
  rw [treeSize] at fits
  have tree : (writeEmatchTree filter.ematches).Small _ :=
    (small_ematchTree fits).nest (by omega) (by decide)
  have fit : ∀ attr ∈ filter.options.attrs, attr.Fits := by
    refine forall_mem_append.mpr ⟨filter.fits_classid, ?_⟩
    exact ((Writer.small_when.mpr fun _ => tree).andThen (small_nothing 0)).2
  exact attrIter_payload ⟨Nat.le_refl _, fit⟩

theorem basicChange_written (fits : filter.treeSize ≤ 65535) (some : filter.ematches ≠ []) :
    Kernel.basicChange (encodeAll .little filter.options.attrs) =
      Kernel.validateFrom 0 (entriesFrom (filter.ematches.length - 1) 0 filter.ematches) := by
  have tree : filter.options.found TCA_BASIC_EMATCHES =
      Option.some (encodeAll .little (ematchTree filter.ematches).attrs) := by
    simp [options, writeEmatchTree, TCA_BASIC_EMATCHES, TCA_BASIC_CLASSID, some]
  rw [Kernel.basicChange, attrIter_options fits, lastOf_seen, tree]
  exact treeValidate_written fits

theorem basicChange_nil (none : filter.ematches = []) :
    Kernel.basicChange (encodeAll .little filter.options.attrs) = some [] := by
  have fits : filter.treeSize ≤ 65535 := by
    rw [treeSize, none]
    decide
  have tree : filter.options.found TCA_BASIC_EMATCHES = Option.none := by
    simp [options, TCA_BASIC_EMATCHES, TCA_BASIC_CLASSID, none]
  rw [Kernel.basicChange, attrIter_options fits, lastOf_seen, tree]

end BasicFilter

/-!
## A tree that does not fit
-/

theorem treeValidate_payload (followed : Bool) :
    Kernel.treeValidate (m.payload followed) = none := by
  have next : nextAttr .little (m.payload followed) = none := by
    rw [Ematch.payload, ematchHdr, FixedLayout.pair]
    dsimp only
    rw [List.append_assoc]
    exact nextAttr_header .little _ (by decide) (m.kindId.isLt) |>.trans (if_pos (.inl (by decide)))
  rw [Kernel.treeValidate, attrIter_of_none next]
  rfl

theorem attrIter_append (order : ByteOrder) {attrs : List Attribute}
    (fit : ∀ attr ∈ attrs, attr.Fits) (rest : List UInt8) :
    attrIter order (encodeAll order attrs ++ rest) =
      attrs.map Attribute.masked ++ attrIter order rest := by
  induction attrs with
  | nil => rfl
  | cons attr attrs ih =>
      obtain ⟨⟨typeFits, lengthFits⟩, restFit⟩ := forall_mem_cons.mp fit
      have next := nextAttr_attrBytes order (encodeAll order attrs ++ rest) typeFits
        lengthFits
      rw [encodeAll, flatMap_cons, ← encodeAll, List.append_assoc, attrIter_of_next next,
        ih restFit]
      rfl

theorem drop_encodeAll {attrs : List Attribute} {size : Nat} (each : ∀ attr ∈ attrs,
    (attrBytes .little attr.1 attr.2).length = size) (count : Nat) :
    (encodeAll .little attrs).drop (count * size) = encodeAll .little (attrs.drop count) := by
  induction count generalizing attrs with
  | zero => rw [Nat.zero_mul, drop_zero, drop_zero]
  | succ count ih =>
      cases attrs with
      | nil => rw [drop_nil, encodeAll, flatMap_nil, drop_nil]
      | cons attr rest =>
          obtain ⟨here, later⟩ := forall_mem_cons.mp each
          rw [encodeAll, flatMap_cons, Nat.succ_mul, Nat.add_comm, ← drop_drop,
            drop_left' here, ← encodeAll, ih later, drop_succ_cons]

/-- The list is cut off, and then it is not found. -/
theorem treeValidate_cut
    (long : 65535 < 16 + (ematches.map Ematch.entrySize).sum) :
    Kernel.treeValidate ((encodeAll .little (ematchTree ematches).attrs).take 65531) = none := by
  have length := length_ematchList ematches
  have size := treeHdr.length_write (BitVec.ofNat 16 ematches.length, TCF_EM_PROG_TC)
  have next := nextAttr_take .little (nextAttr_attrBytes .little
    (attrBytes .little (TCA_EMATCH_TREE_LIST ||| NLA_F_NESTED)
      (encodeAll .little (ematchList ematches).attrs))
    (show TCA_EMATCH_TREE_HDR < 256 ^ 2 by decide) (by rw [size]; decide)) 65531
  have list : nextAttr .little ((attrBytes .little (TCA_EMATCH_TREE_LIST ||| NLA_F_NESTED)
      (encodeAll .little (ematchList ematches).attrs)).take
        (65531 - nlaAlign (NLA_HDRLEN + treeHdr.size))) = none := by
    refine nextAttr_cut .little (by decide) (by decide) ?_
    change 65523 < _
    rw [length, NLA_HDRLEN]
    omega
  dsimp only at next
  rw [size, if_pos (by decide)] at next
  rw [Kernel.treeValidate, encodeAll_ematchTree, attrIter_of_next next, attrIter_of_none list]
  cases treeHdr.fromPrefix? (treeHdr.write (BitVec.ofNat 16 ematches.length, TCF_EM_PROG_TC)) <;>
    rfl

theorem drop_ematchTree (cmps : ∀ m ∈ ematches, m.isCmp = true) :
    (encodeAll .little (ematchTree ematches).attrs).drop 65532 =
      encodeAll .little ((ematchList ematches).attrs.drop 2340) := by
  have header : (attrBytes .little TCA_EMATCH_TREE_HDR (treeHdr.write
      (BitVec.ofNat 16 ematches.length, TCF_EM_PROG_TC))).length = 8 := by
    rw [attrBytes_length, treeHdr.length_write]
    rfl
  have unpadded : padding (4 + (encodeAll .little (ematchList ematches).attrs).length) = [] :=
    padding_of_dvd (Nat.dvd_add (Nat.dvd_refl 4) (dvd_ematchList ematches))
  have behind := drop_attrBytes .little (TCA_EMATCH_TREE_LIST ||| NLA_F_NESTED)
    (encodeAll .little (ematchList ematches).attrs) []
  rw [List.append_nil, unpadded, List.append_nil, List.append_nil] at behind
  rw [encodeAll_ematchTree, show 65532 = 8 + (4 + 2340 * 28) from rfl, ← drop_drop,
    drop_left' header, ← drop_drop, behind]
  refine drop_encodeAll ?_ 2340
  rw [attrs_ematchList]
  intro attr member
  obtain ⟨entry, isEntry, rfl⟩ := mem_map.mp member
  have isCmp := cmps entry.1 (fst_mem_of_mem_zipIdx isEntry)
  rw [attrBytes_length, entry.1.length_payload, Ematch.entrySize, if_pos isCmp]
  rfl

theorem encodeAll_options {filter : BasicFilter} (some : filter.ematches ≠ []) :
    ∃ before, (∀ attr ∈ before, attr.Fits) ∧ encodeAll .little filter.options.attrs =
      encodeAll .little before ++ attrBytes .little (TCA_BASIC_EMATCHES ||| NLA_F_NESTED)
        (encodeAll .little (ematchTree filter.ematches).attrs) := by
  have notEmpty : (!filter.ematches.isEmpty) = true := by
    rw [isEmpty_eq_false_iff.mpr some]
    rfl
  refine ⟨_, filter.fits_classid, ?_⟩
  rw [BasicFilter.options, notEmpty]
  change encodeAll .little (_ ++ [_]) = _
  rw [encodeAll, flatMap_append, flatMap_singleton]
  rfl

/-- What the kernel finds behind the tree are matches of the list, and none of them
is a tree. -/
theorem basicChange_long {filter : BasicFilter} (long : 65535 < filter.treeSize)
    (cmps : ∀ m ∈ filter.ematches, m.isCmp = true) :
    Kernel.basicChange (encodeAll .little filter.options.attrs) = none := by
  have length := length_ematchTree filter.ematches
  have isLong : 65535 <
      NLA_HDRLEN + (encodeAll .little (ematchTree filter.ematches).attrs).length := by
    rw [length, NLA_HDRLEN, ← Nat.add_assoc]
    exact long
  have next := nextAttr_long .little (show TCA_BASIC_EMATCHES ||| NLA_F_NESTED < 256 ^ 2 by decide)
    (ematchTree filter.ematches).appends.aligned isLong
  have some : filter.ematches ≠ [] := by
    rintro isNil
    rw [BasicFilter.treeSize, isNil] at long
    exact absurd long (by decide)
  obtain ⟨before, fits, bytes⟩ := encodeAll_options some
  rw [drop_ematchTree cmps] at next
  have left : ∀ payload, lastOf (attrIter .little (encodeAll .little
      ((ematchList filter.ematches).attrs.drop 2340))) TCA_BASIC_EMATCHES = Option.some payload →
        Kernel.treeValidate payload = none := by
    intro payload isLast
    have member := mem_of_lastOf isLast
    rw [attrIter_encodeAll .little fun attr member =>
      fits_ematchList _ attr (mem_of_mem_drop member)] at member
    obtain ⟨attr, inList, isAttr⟩ := mem_map.mp member
    replace inList := mem_of_mem_drop inList
    rw [attrs_ematchList] at inList
    obtain ⟨entry, -, rfl⟩ := mem_map.mp inList
    have isPayload : entry.1.payload (decide (entry.2 < filter.ematches.length - 1)) = payload :=
      congrArg Prod.snd isAttr
    rw [← isPayload]
    exact treeValidate_payload entry.1 _
  rw [Kernel.basicChange, bytes, attrIter_append .little fits, attrIter_of_next next,
    ← singleton_append, lastOf_append, lastOf_append]
  cases found : lastOf (attrIter .little (encodeAll .little
      ((ematchList filter.ematches).attrs.drop 2340))) TCA_BASIC_EMATCHES with
  | some payload => exact left payload found
  | none => exact treeValidate_cut long

/-!
## Filters
-/

namespace BasicFilter

variable (filter : BasicFilter)

/-- Every match is a comparison. -/
def AllCmp : Prop :=
  ∀ m ∈ filter.ematches, m.isCmp = true

variable {filter}

theorem treeSize_of_allCmp (cmps : filter.AllCmp) :
    filter.treeSize = 16 + 28 * filter.ematches.length := by
  have each : filter.ematches.map Ematch.entrySize = filter.ematches.map fun _ => 28 :=
    map_congr_left fun m member => if_pos (cmps m member)
  rw [treeSize, each, map_const', sum_replicate_nat, Nat.mul_comm]

theorem means_of_basicChange {tree : List Kernel.Match}
    (changed : Kernel.basicChange (encodeAll .little filter.options.attrs) = some tree)
    (same : ∀ packet, Kernel.treeMatch packet tree = expression packet filter.ematches) :
    Means filter := by
  intro builder aligned
  refine .inr ⟨_, tree, rfl, ?_, same⟩
  rw [filter.options.appends.appended builder aligned, drop_left]
  exact changed

theorem exists_basicChange_of_means (means : Means filter) :
    ∃ tree, Kernel.basicChange (encodeAll .little filter.options.attrs) = some tree := by
  obtain ⟨error, isError⟩ | ⟨written, tree, isWritten, changed, -⟩ :=
    means { buf := [] } (Nat.dvd_zero 4 |>.trans (Nat.dvd_refl _))
  · cases isError
  · cases isWritten
    rw [filter.options.appends.appended _ (dvd_zero 4), drop_left] at changed
    exact ⟨tree, changed⟩

theorem means_of_allCmp (cmps : filter.AllCmp) (few : filter.ematches.length ≤ 2339) :
    Means filter := by
  have size := treeSize_of_allCmp cmps
  cases ematches : filter.ematches with
  | nil =>
      refine means_of_basicChange (basicChange_nil ematches) fun packet => ?_
      rw [ematches]
      rfl
  | cons m rest =>
      rw [AllCmp, ematches] at cmps
      obtain ⟨first, later, validated, evaluated⟩ :=
        validateFrom_entries (Nat.zero_add rest.length) cmps
      have some : filter.ematches ≠ [] := by
        rw [ematches]
        exact cons_ne_nil _ _
      have changed := basicChange_written (by omega) some
      rw [ematches, length_cons, Nat.add_sub_cancel, validated] at changed
      refine means_of_basicChange changed fun packet => ?_
      rw [ematches, ← evaluated packet false]
      rfl

end BasicFilter

/-- A filter means what its matches say if they are comparisons and at most 2339; it
does not, if they are more, or if another match is among them that fits. -/
theorem means_iff (filter : BasicFilter) :
    (filter.AllCmp ∧ filter.ematches.length ≤ 2339 → Means filter) ∧
      (Means filter → filter.AllCmp ∧ filter.ematches.length ≤ 2339 ∨
        ¬ filter.AllCmp ∧ 65535 < filter.treeSize) := by
  refine ⟨fun ⟨cmps, few⟩ => BasicFilter.means_of_allCmp cmps few, fun means => ?_⟩
  obtain ⟨tree, changed⟩ := BasicFilter.exists_basicChange_of_means means
  by_cases fits : filter.treeSize ≤ 65535
  · have cmps : filter.AllCmp := by
      by_cases some : filter.ematches = []
      · rw [BasicFilter.AllCmp, some]
        exact forall_mem_nil _
      · rw [BasicFilter.basicChange_written fits some] at changed
        exact isCmp_of_validateFrom changed
    have size := BasicFilter.treeSize_of_allCmp cmps
    exact .inl ⟨cmps, by omega⟩
  · by_cases cmps : filter.AllCmp
    · rw [basicChange_long (Nat.lt_of_not_le fits) cmps] at changed
      cases changed
    · exact .inr ⟨cmps, Nat.lt_of_not_le fits⟩

/-- A filter for a destination port of 80. -/
def portFilter : BasicFilter where
  classid := none
  ematches := [{ kind := .u32 ⟨0xFFFF, 80, 20⟩, op := .and, negate := false }]

theorem not_means_portFilter : ¬ Means portFilter := by
  intro means
  obtain ⟨tree, changed⟩ := BasicFilter.exists_basicChange_of_means means
  have refused : (Kernel.basicChange (encodeAll .little portFilter.options.attrs)).isNone := by
    decide +kernel
  rw [changed] at refused
  cases refused

end Nlink.Ematches
