import Nlink.Foundation.FixedLayout
import Nlink.Foundation.Layout

namespace Nlink.Sockdiag

/-!
# Socket filter expressions

A filter expression is evaluated on the client against the sockets of a dump.
Only the fields of an inet socket that an expression reads are kept: its state
and the address and port of its two ends.
-/

/-- States of a TCP socket, by their kernel numbers. -/
inductive TcpState where
  | unknown
  | established
  | synSent
  | synRecv
  | finWait1
  | finWait2
  | timeWait
  | close
  | closeWait
  | lastAck
  | listen
  | closing
  | newSynRecv
  | boundInactive
  deriving DecidableEq

namespace TcpState

def number : TcpState → Nat
  | .unknown => 0
  | .established => 1
  | .synSent => 2
  | .synRecv => 3
  | .finWait1 => 4
  | .finWait2 => 5
  | .timeWait => 6
  | .close => 7
  | .closeWait => 8
  | .lastAck => 9
  | .listen => 10
  | .closing => 11
  | .newSynRecv => 12
  | .boundInactive => 13

/-- The bit of a state in a state mask. -/
def mask (state : TcpState) : BitVec 32 :=
  1#32 <<< state.number

def allMask : BitVec 32 :=
  (1#32 <<< 14) - 1#32

theorem number_lt (state : TcpState) : state.number < 14 := by
  cases state <;> decide

theorem getLsbD_mask (first second : TcpState) :
    first.mask.getLsbD second.number = decide (second = first) := by
  cases first <;> cases second <;> decide

theorem getLsbD_allMask (state : TcpState) : allMask.getLsbD state.number = true := by
  cases state <;> decide

end TcpState

/-- The state of a socket of any kind. -/
inductive SocketState where
  | tcp (state : TcpState)
  | close
  | established
  | listen
  deriving DecidableEq

/-- An IP address; the number is the address read in network order. -/
inductive IpAddr where
  | v4 (bits : BitVec 32)
  | v6 (bits : BitVec 128)
  deriving DecidableEq

/-- One end of a socket. -/
structure SocketAddr where
  ip : IpAddr
  port : UInt16
  deriving DecidableEq

/-- The fields of an inet socket that filter expressions read. -/
structure InetSocket where
  state : SocketState
  localAddr : SocketAddr
  remoteAddr : SocketAddr

/-- Comparison operators of port filters. -/
inductive Comparison where
  | eq
  | ne
  | lt
  | le
  | gt
  | ge

/-- Compare a socket's port with the filter's. -/
def Comparison.apply (comparison : Comparison) (lhs rhs : UInt16) : Bool :=
  match comparison with
  | .eq => lhs == rhs
  | .ne => lhs != rhs
  | .lt => decide (lhs < rhs)
  | .le => decide (lhs ≤ rhs)
  | .gt => decide (lhs > rhs)
  | .ge => decide (lhs ≥ rhs)

/-- Socket filter expressions. -/
inductive FilterExpr where
  | sport (comparison : Comparison) (port : UInt16)
  | dport (comparison : Comparison) (port : UInt16)
  | src (addr : IpAddr) (prefixLen : UInt8)
  | dst (addr : IpAddr) (prefixLen : UInt8)
  | state (state : SocketState)
  | and (left right : FilterExpr)
  | or (left right : FilterExpr)
  | not (inner : FilterExpr)

/-- The mask of the leading `prefixLen` bits, with the explicit zero case. -/
def prefixMask (width prefixLen : Nat) : BitVec width :=
  if prefixLen = 0 then BitVec.zero width else BitVec.allOnes width <<< (width - prefixLen)

/-- Whether a socket's address falls inside the filter's prefix. -/
def ipMatches (socketIp filterIp : IpAddr) (prefixLen : UInt8) : Bool :=
  match socketIp, filterIp with
  | .v4 sock, .v4 filter =>
      if prefixLen.toNat ≥ 32 then
        sock == filter
      else
        sock &&& prefixMask 32 prefixLen.toNat == filter &&& prefixMask 32 prefixLen.toNat
  | .v6 sock, .v6 filter =>
      if prefixLen.toNat ≥ 128 then
        sock == filter
      else
        sock &&& prefixMask 128 prefixLen.toNat == filter &&& prefixMask 128 prefixLen.toNat
  | _, _ => false

/-- Evaluate an expression against an inet socket. -/
def FilterExpr.matches (socket : InetSocket) : FilterExpr → Bool
  | .sport comparison port => comparison.apply socket.localAddr.port port
  | .dport comparison port => comparison.apply socket.remoteAddr.port port
  | .src addr prefixLen => ipMatches socket.localAddr.ip addr prefixLen
  | .dst addr prefixLen => ipMatches socket.remoteAddr.ip addr prefixLen
  | .state wanted => socket.state == wanted
  | .and left right => left.matches socket && right.matches socket
  | .or left right => left.matches socket || right.matches socket
  | .not inner => !inner.matches socket

/-- Every state leaf names a TCP state, as the parser builds them. -/
def FilterExpr.TcpStatesOnly : FilterExpr → Prop
  | .state (.tcp _) => True
  | .state _ => False
  | .and left right => left.TcpStatesOnly ∧ right.TcpStatesOnly
  | .or left right => left.TcpStatesOnly ∧ right.TcpStatesOnly
  | .not inner => inner.TcpStatesOnly
  | _ => True

def leadingBits (width prefixLen value : Nat) : Nat :=
  value >>> (width - prefixLen)

/-- Comparing under the mask is comparing the leading bits. -/
theorem and_prefixMask_eq_iff {width prefixLen : Nat} (left right : BitVec width) :
    left &&& prefixMask width prefixLen = right &&& prefixMask width prefixLen ↔
      leadingBits width prefixLen left.toNat = leadingBits width prefixLen right.toNat := by
  have maskBit : ∀ index < width, (prefixMask width prefixLen).getLsbD index =
        decide (width - prefixLen ≤ index) := by
    intro index inside
    by_cases zero : prefixLen = 0
    · simp [prefixMask, zero, inside]
    · by_cases leading : width - prefixLen ≤ index
      · simp [prefixMask, zero, inside, leading]
      · simp [prefixMask, zero, inside, leading]
        omega
  constructor
  · intro same
    apply Nat.eq_of_testBit_eq
    intro index
    rw [leadingBits, leadingBits, Nat.testBit_shiftRight, Nat.testBit_shiftRight]
    have bitSame := congrArg
      (fun value : BitVec width => value.getLsbD (width - prefixLen + index)) same
    simp only [BitVec.getLsbD_and] at bitSame
    by_cases inside : width - prefixLen + index < width
    · rw [maskBit _ inside] at bitSame
      rw [BitVec.testBit_toNat, BitVec.testBit_toNat]
      simpa using bitSame
    · have leftBit := BitVec.getLsbD_of_ge left (width - prefixLen + index) (by omega)
      have rightBit := BitVec.getLsbD_of_ge right (width - prefixLen + index) (by omega)
      exact leftBit.trans rightBit.symm
  · intro same
    apply BitVec.eq_of_getLsbD_eq
    intro index inside
    rw [BitVec.getLsbD_and, BitVec.getLsbD_and, maskBit index inside]
    by_cases leading : width - prefixLen ≤ index
    · have bitSame := congrArg (fun value => value.testBit (index - (width - prefixLen))) same
      simp only [leadingBits, Nat.testBit_shiftRight, BitVec.testBit_toNat] at bitSame
      rw [show width - prefixLen + (index - (width - prefixLen)) = index by omega] at bitSame
      simpa [leading] using bitSame
    · simp [leading]

theorem masked_match_eq {width : Nat} (sock filter : BitVec width) (prefixLen : Nat) :
    (if prefixLen ≥ width then
        sock == filter
      else
        sock &&& prefixMask width prefixLen == filter &&& prefixMask width prefixLen) =
      (leadingBits width (min prefixLen width) sock.toNat ==
        leadingBits width (min prefixLen width) filter.toNat) := by
  by_cases long : prefixLen ≥ width
  · rw [if_pos long, Nat.min_eq_right long, leadingBits, leadingBits,
      Nat.sub_self, Nat.shiftRight_zero, Nat.shiftRight_zero]
    rw [Bool.eq_iff_iff, beq_iff_eq, beq_iff_eq]
    exact BitVec.toNat_inj.symm
  · have bounded : prefixLen ≤ width := by omega
    rw [if_neg long, Nat.min_eq_left bounded, Bool.eq_iff_iff, beq_iff_eq, beq_iff_eq]
    exact and_prefixMask_eq_iff sock filter

open Foundation

/-!
## Compiling filter expressions to kernel bytecode

An expression is lowered to negation normal form over the conditions that the
kernel can test, code is generated with forward labels, and the labels are
resolved to byte distances.  Numbers are written in the host's byte order,
which is a parameter.
-/

/-- Codes of `struct inet_diag_bc_op`. -/
def INET_DIAG_BC_JMP : UInt8 := 1
def INET_DIAG_BC_S_GE : UInt8 := 2
def INET_DIAG_BC_S_LE : UInt8 := 3
def INET_DIAG_BC_D_GE : UInt8 := 4
def INET_DIAG_BC_D_LE : UInt8 := 5
def INET_DIAG_BC_S_COND : UInt8 := 7
def INET_DIAG_BC_D_COND : UInt8 := 8

def AF_INET : UInt8 := 2
def AF_INET6 : UInt8 := 10

/-- The address payload of a host condition. -/
inductive HostAddr where
  | v4 (bits : BitVec 32)
  | v6 (bits : BitVec 128)

namespace HostAddr

/-- The payload's length in bytes. -/
def len : HostAddr → Nat
  | .v4 _ => 4
  | .v6 _ => 16

/-- The payload itself, in network order. -/
def octets : HostAddr → List UInt8
  | .v4 bits => ByteOrder.big.toBytes 4 bits.toNat
  | .v6 bits => ByteOrder.big.toBytes 16 bits.toNat

@[simp]
theorem octets_length (addr : HostAddr) : addr.octets.length = addr.len := by
  cases addr <;> simp [octets, len]

end HostAddr

/-- A condition that the kernel can test. -/
inductive Prim where
  | port (code : UInt8) (port : UInt16)
  | host (code family prefixLen : UInt8) (addr : HostAddr)
  | jmp

/-- The bytes that a condition takes. -/
def Prim.size : Prim → Nat
  | .port _ _ => 8
  | .host _ _ _ addr => 4 + 8 + addr.len
  | .jmp => 4

/-- Negation normal form over the kernel's conditions. -/
inductive Nnf where
  | and (parts : List Nnf)
  | or (parts : List Nnf)
  | leaf (prim : Prim)

/-- The comparison that holds when the given one does not. -/
def flip : Comparison → Comparison
  | .eq => .ne
  | .ne => .eq
  | .lt => .ge
  | .ge => .lt
  | .le => .gt
  | .gt => .le

/-- `u16::checked_add`. -/
def checkedAdd (left right : UInt16) : Option UInt16 :=
  if left.toNat + right.toNat < 65536 then some (left + right) else none

/-- `u16::checked_sub`. -/
def checkedSub (left right : UInt16) : Option UInt16 :=
  if right.toNat ≤ left.toNat then some (left - right) else none

/-- Lower a port comparison.  A bound that no port meets gives `none`. -/
def lowerPortCmp (isSource : Bool) (comparison : Comparison) (port : UInt16) : Option Nnf :=
  let ge := if isSource then INET_DIAG_BC_S_GE else INET_DIAG_BC_D_GE
  let le := if isSource then INET_DIAG_BC_S_LE else INET_DIAG_BC_D_LE
  let leaf := fun code bound => Nnf.leaf (.port code bound)
  match comparison with
  | .eq => some (.and [leaf ge port, leaf le port])
  | .ge => some (leaf ge port)
  | .le => some (leaf le port)
  | .gt => (checkedAdd port 1).map (leaf ge)
  | .lt => (checkedSub port 1).map (leaf le)
  | .ne =>
      match checkedSub port 1, checkedAdd port 1 with
      | some lo, some hi => some (.or [leaf le lo, leaf ge hi])
      | none, some hi => some (leaf ge hi)
      | some lo, none => some (leaf le lo)
      -- The source calls this arm unreachable.
      | none, none => none

/-- Lower an address condition, clamping the prefix to the address. -/
def lowerHost (isSource : Bool) (addr : IpAddr) (prefixLen : UInt8) : Prim :=
  let code := if isSource then INET_DIAG_BC_S_COND else INET_DIAG_BC_D_COND
  match addr with
  | .v4 bits => .host code AF_INET (min prefixLen 32) (.v4 bits)
  | .v6 bits => .host code AF_INET6 (min prefixLen 128) (.v6 bits)

/-- Push negations to the leaves.  A state leaf, an inexpressible bound or a
negated address condition has no kernel form. -/
def lower : FilterExpr → Bool → Option Nnf
  | .and left right, negated => do
      let left ← lower left negated
      let right ← lower right negated
      return if negated then .or [left, right] else .and [left, right]
  | .or left right, negated => do
      let left ← lower left negated
      let right ← lower right negated
      return if negated then .and [left, right] else .or [left, right]
  | .not inner, negated => lower inner (!negated)
  | .sport comparison port, negated =>
      lowerPortCmp true (if negated then flip comparison else comparison) port
  | .dport comparison port, negated =>
      lowerPortCmp false (if negated then flip comparison else comparison) port
  | .src _ _, true => none
  | .dst _ _, true => none
  | .src addr prefixLen, false => some (.leaf (lowerHost true addr prefixLen))
  | .dst addr prefixLen, false => some (.leaf (lowerHost false addr prefixLen))
  | .state _, _ => none

abbrev LabelId := Nat

/-- Where a failing instruction goes. -/
inductive Target where
  | reject
  | label (label : LabelId)

/-- Generated code.  A label that is not bound yet is `none`, where the source
has `usize::MAX`. -/
structure Program where
  instrs : List (Prim × Target)
  labels : List (Option Nat)

namespace Program

/-- The program without instructions or labels. -/
def new : Program where
  instrs := []
  labels := []

/-- Add a label; its id is the previous count of labels. -/
def newLabel (program : Program) : Program where
  instrs := program.instrs
  labels := program.labels ++ [none]

/-- Bind a label to the next instruction. -/
def bind (program : Program) (label : LabelId) : Program where
  instrs := program.instrs
  labels := program.labels.set label (some program.instrs.length)

def push (program : Program) (prim : Prim) (target : Target) : Program where
  instrs := program.instrs ++ [(prim, target)]
  labels := program.labels

mutual

/-- Emit code that falls through on success and goes to `fail` otherwise. -/
def emitNnf (program : Program) : Nnf → Target → Program
  | .and parts, fail => emitAll program parts fail
  | .or parts, fail =>
      let done := program.labels.length
      (emitAlternatives program.newLabel parts done fail).bind done
  | .leaf prim, fail => program.push prim fail

/-- Emit the parts of a conjunction one after another. -/
def emitAll (program : Program) : List Nnf → Target → Program
  | [], _ => program
  | part :: rest, fail => emitAll (emitNnf program part fail) rest fail

/-- Emit the alternatives of a disjunction; the last one fails as a whole. -/
def emitAlternatives (program : Program) : List Nnf → LabelId → Target → Program
  | [], _, _ => program
  | [last], _, fail => emitNnf program last fail
  | alternative :: next :: rest, done, fail =>
      let nextAlternative := program.labels.length
      let matched := emitNnf program.newLabel alternative (.label nextAlternative)
      let skipping := matched.push .jmp (.label done)
      emitAlternatives (skipping.bind nextAlternative) (next :: rest) done fail

end

/-- The byte offset of an instruction, or of the end. -/
def offsetOf (program : Program) (index : Nat) : Nat :=
  Layout.offset (fun instr => instr.1.size) program.instrs index

/-- The program's length in bytes. -/
def totalSize (program : Program) : Nat :=
  Layout.total (fun instr => instr.1.size) program.instrs

/-- The byte offset that a label stands for; an unbound label is the end. -/
def destination (program : Program) (label : LabelId) : Nat :=
  match program.labels.getD label none with
  | none => program.totalSize
  | some index =>
      if index ≥ program.instrs.length then program.totalSize else program.offsetOf index

/-- The distance from an offset to a target.  A distance that would be
negative does not fit the wire format. -/
def distance (program : Program) (here : Nat) : Target → Option Nat
  | .reject => some (program.totalSize - here + 4)
  | .label label =>
      if here ≤ program.destination label then some (program.destination label - here) else none

/-- Conversion to an unsigned integer of the given number of values. -/
def tryFrom (values number : Nat) : Option Nat :=
  if number < values then some number else none

def encodeInstr (order : ByteOrder) (prim : Prim) (yes no : Nat) : List UInt8 :=
  match prim with
  | .port code port =>
      [code, UInt8.ofNat yes] ++ order.toBytes 2 no ++ [0, 0] ++ order.toBytes 2 port.toNat
  | .host code family prefixLen addr =>
      [code, UInt8.ofNat yes] ++ order.toBytes 2 no ++
        [family, prefixLen, 0, 0] ++ order.toBytes 4 0xffffffff ++
        addr.octets
  | .jmp => [INET_DIAG_BC_JMP, UInt8.ofNat yes] ++ order.toBytes 2 no

/-- The instructions from an index on, each with its own bytes. -/
def resolveFrom (program : Program) (order : ByteOrder) :
    Nat → List (Prim × Target) → Option (List (List UInt8))
  | _, [] => some []
  | index, (prim, target) :: rest => do
      let far ← program.distance (program.offsetOf index) target
      let no ← tryFrom 65536 far
      let yes ← tryFrom 256 prim.size
      let chunks ← program.resolveFrom order (index + 1) rest
      return encodeInstr order prim yes no :: chunks

/-- Resolve labels to byte distances and serialize.  The attribute length and
the farthest distance have to fit 16 bits. -/
def resolve (program : Program) (order : ByteOrder) : Option (List UInt8) :=
  if program.totalSize > 65535 - 8 then
    none
  else
    (program.resolveFrom order 0 program.instrs).map List.flatten

end Program

mutual

/-- Whether the kernel form filters exactly what the expression says. -/
def nnfIsExact : Nnf → Bool
  | .and parts => allExact parts
  | .or parts => allExact parts
  | .leaf (.port _ _) => true
  | .leaf _ => false

/-- Whether every part is exact. -/
def allExact : List Nnf → Bool
  | [] => true
  | part :: rest => nnfIsExact part && allExact rest

end

/-- The state bit that a state leaf stands for. -/
def stateMask : SocketState → BitVec 32
  | .tcp state => state.mask
  | .close => TcpState.mask .close
  | .established => TcpState.mask .established
  | .listen => TcpState.mask .listen

/-- The mask of an expression over state leaves only. -/
def evalStateMask : FilterExpr → Option (BitVec 32)
  | .state state => some (stateMask state)
  | .and left right => do
      let left ← evalStateMask left
      let right ← evalStateMask right
      return left &&& right
  | .or left right => do
      let left ← evalStateMask left
      let right ← evalStateMask right
      return left ||| right
  | .not inner => do
      let inner ← evalStateMask inner
      return ~~~inner &&& TcpState.allMask
  | _ => none

/-- Whether a state leaf occurs. -/
def containsState : FilterExpr → Bool
  | .state _ => true
  | .and left right => containsState left || containsState right
  | .or left right => containsState left || containsState right
  | .not inner => containsState inner
  | _ => false

/-- The conjuncts of the top-level `and` spine. -/
def conjuncts : FilterExpr → List FilterExpr
  | .and left right => conjuncts left ++ conjuncts right
  | other => [other]

/-- The kernel-side part of a filter. -/
structure CompiledFilter where
  states : Option (BitVec 32)
  bytecode : Option (List UInt8)
  exact : Bool

/-- What the loop over the conjuncts has collected. -/
structure Split where
  states : Option (BitVec 32)
  bcParts : List FilterExpr
  exact : Bool

/-- One conjunct goes to the state mask, to the bytecode or to the client. -/
def Split.add (split : Split) (conjunct : FilterExpr) : Split :=
  match evalStateMask conjunct with
  | some mask => { split with states := some (split.states.getD (BitVec.allOnes 32) &&& mask) }
  | none =>
      if containsState conjunct then
        { split with exact := false }
      else
        { split with bcParts := split.bcParts ++ [conjunct] }

def Split.of (expr : FilterExpr) : Split :=
  (conjuncts expr).foldl Split.add { states := none, bcParts := [], exact := true }

/-- Lower the parts one by one; a part without a kernel form is dropped. -/
def lowerParts (parts : List FilterExpr) : List Nnf :=
  parts.filterMap (lower · false)

/-- The code of a negation normal form that rejects on failure. -/
def assemble (order : ByteOrder) (nnf : Nnf) : Option (List UInt8) :=
  (Program.new.emitNnf nnf .reject).resolve order

/-- Compile an expression to its state mask and bytecode. -/
def compileFilter (order : ByteOrder) (expr : FilterExpr) : CompiledFilter :=
  let split := Split.of expr
  let lowered := lowerParts split.bcParts
  let noneDropped := split.bcParts.all fun part => (lower part false).isSome
  if lowered.isEmpty then
    { states := split.states
      bytecode := none
      exact := split.exact && noneDropped }
  else
    let bytes := assemble order (.and lowered)
    { states := split.states
      bytecode := bytes
      exact := split.exact && noneDropped && nnfIsExact (.and lowered) && bytes.isSome }

/-- Compile an expression to a bare bytecode payload. -/
def compile (order : ByteOrder) (expr : FilterExpr) : Option (List UInt8) := do
  let nnf ← lower expr false
  assemble order nnf

/-- The parts that pin one port, when it is given. -/
def portParts (isSource : Bool) : Option UInt16 → Option (List Nnf)
  | none => some []
  | some port => (lowerPortCmp isSource .eq port).map ([·])

/-- The bytecode that pins a source port, a destination port or both. -/
def forPorts (order : ByteOrder) (sport dport : Option UInt16) : Option (List UInt8) := do
  let sourceParts ← portParts true sport
  let destinationParts ← portParts false dport
  let parts := sourceParts ++ destinationParts
  if parts.isEmpty then none else assemble order (.and parts)

end Nlink.Sockdiag
