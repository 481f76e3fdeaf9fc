import Nlink.SockdiagExpr

namespace Nlink.Sockdiag

open Foundation List

/-!
# The kernel's bytecode walk and audit

`inet_diag_bc_run` walks a program over one socket: a matching op advances by
its `yes` field and a failing one by its `no` field, and the socket is accepted
when exactly no bytes remain.  `inet_diag_bc_audit` walks a program by `yes`
alone before it is run.  An opcode or an address family outside the emitted
ones, and a read past the end of the program, leave the walk without a result.
-/

/-- What the kernel knows of a socket when it runs a program. -/
structure DiagEntry where
  saddr : IpAddr
  daddr : IpAddr
  sport : Nat
  dport : Nat

/-- The kernel's view of an inet socket. -/
def InetSocket.entry (socket : InetSocket) : DiagEntry where
  saddr := socket.localAddr.ip
  daddr := socket.remoteAddr.ip
  sport := socket.localAddr.port.toNat
  dport := socket.remoteAddr.port.toNat

/-- The `yes` field of the op at the head of the bytes. -/
def opYes : List UInt8 → Option Nat
  | _ :: yes :: _ => some yes.toNat
  | _ => none

/-- The `no` field of the op at the head of the bytes. -/
def opNo (order : ByteOrder) : List UInt8 → Option Nat
  | _ :: _ :: first :: second :: _ => some (order.ofBytes [first, second])
  | _ => none

/-- The length of an address of a family. -/
def addrLen (family : UInt8) : Option Nat :=
  if family = AF_INET then
    some 4
  else if family = AF_INET6 then
    some 16
  else
    none

/-- Match a socket's address with a condition's family, prefix and address. -/
def hostCondMatches (addr : IpAddr) (family prefixLen : UInt8) (condition : List UInt8) :
    Bool :=
  let wanted := ByteOrder.big.ofBytes condition
  match addr with
  | .v4 bits =>
      family == AF_INET && leadingBits 32 prefixLen.toNat bits.toNat ==
          leadingBits 32 prefixLen.toNat wanted
  | .v6 bits =>
      if family == AF_INET6 then
        leadingBits 128 prefixLen.toNat bits.toNat == leadingBits 128 prefixLen.toNat wanted
      else
        -- A v4-mapped address also matches a condition on AF_INET.
        family == AF_INET && bits.toNat >>> 32 == 0xffff &&
          leadingBits 32 prefixLen.toNat (bits.toNat % 2 ^ 32) ==
            leadingBits 32 prefixLen.toNat wanted

/-- Evaluate `struct inet_diag_hostcond`; port -1 matches every port. -/
def hostCondHolds (order : ByteOrder) (addr : IpAddr) (port : Nat) : List UInt8 → Option Bool
  | family :: prefixLen :: _ :: _ :: p0 :: p1 :: p2 :: p3 :: rest => do
      let len ← addrLen family
      if rest.length < len then
        none
      else
        let wanted := order.ofBytes [p0, p1, p2, p3]
        some ((wanted == 0xffffffff || wanted == port) &&
          hostCondMatches addr family prefixLen (rest.take len))
  | _ => none

/-- Whether the op at the head of the bytes matches the socket. -/
def opHolds (order : ByteOrder) (entry : DiagEntry) (op : List UInt8) : Option Bool := do
  let code ← op.head?
  if code = INET_DIAG_BC_JMP then
    some false
  else if code = INET_DIAG_BC_S_GE then
    (opNo order (op.drop 4)).map fun bound => decide (entry.sport ≥ bound)
  else if code = INET_DIAG_BC_S_LE then
    (opNo order (op.drop 4)).map fun bound => decide (entry.sport ≤ bound)
  else if code = INET_DIAG_BC_D_GE then
    (opNo order (op.drop 4)).map fun bound => decide (entry.dport ≥ bound)
  else if code = INET_DIAG_BC_D_LE then
    (opNo order (op.drop 4)).map fun bound => decide (entry.dport ≤ bound)
  else if code = INET_DIAG_BC_S_COND then
    hostCondHolds order entry.saddr entry.sport (op.drop 4)
  else if code = INET_DIAG_BC_D_COND then
    hostCondHolds order entry.daddr entry.dport (op.drop 4)
  else
    none

/-- `inet_diag_bc_run` on the remaining bytes, for at most `fuel` ops. -/
def bcRun (order : ByteOrder) (entry : DiagEntry) : Nat → List UInt8 → Option Bool
  | _, [] => some true
  | 0, _ :: _ => none
  | fuel + 1, op@(_ :: _) => do
      let holds ← opHolds order entry op
      let distance ← if holds then opYes op else opNo order op
      if distance ≤ op.length then bcRun order entry fuel (op.drop distance) else some false

/-- One op that the audit has visited. -/
structure AuditedOp where
  offset : Nat
  remaining : Nat
  yes : Nat
  no : Nat
  minLen : Nat

/-- The least length of the op at the head of the bytes.  Unknown opcodes and
malformed host conditions have none. -/
def opMinLen (op : List UInt8) : Option Nat := do
  let code ← op.head?
  if code = INET_DIAG_BC_JMP then
    some 4
  else if code = INET_DIAG_BC_S_GE ∨ code = INET_DIAG_BC_S_LE ∨
      code = INET_DIAG_BC_D_GE ∨ code = INET_DIAG_BC_D_LE then
    some 8
  else if code = INET_DIAG_BC_S_COND ∨ code = INET_DIAG_BC_D_COND then
    match op.drop 4 with
    | family :: prefixLen :: _ => do
        let len ← addrLen family
        if 8 * len < prefixLen.toNat then none else some (4 + 8 + len)
    | _ => none
  else
    none

/-- Walk a program by `yes`, collecting the ops visited. -/
def auditWalk (order : ByteOrder) : Nat → Nat → List UInt8 → Option (List AuditedOp)
  | _, _, [] => some []
  | 0, _, _ :: _ => none
  | fuel + 1, offset, op@(_ :: _) => do
      let yes ← opYes op
      let no ← opNo order op
      let minLen ← opMinLen op
      if yes < minLen ∨ op.length < yes ∨ yes % 4 ≠ 0 then
        none
      else
        let rest ← auditWalk order fuel (offset + yes) (op.drop yes)
        some ({ offset := offset
                remaining := op.length
                yes := yes
                no := no
                minLen := minLen } :: rest)

theorem auditWalk_step {order : ByteOrder} {fuel offset yes no minLen : Nat} {op : List UInt8}
    {rest : List AuditedOp} (isYes : opYes op = some yes) (isNo : opNo order op = some no)
    (isMinLen : opMinLen op = some minLen) (notShort : minLen ≤ yes) (inside : yes ≤ op.length)
    (aligned : yes % 4 = 0) (walk : auditWalk order fuel (offset + yes) (op.drop yes) = some rest) :
    auditWalk order (fuel + 1) offset op =
      some ({ offset := offset
              remaining := op.length
              yes := yes
              no := no
              minLen := minLen } :: rest) := by
  cases op with
  | nil => cases isYes
  | cons head tail =>
      rw [auditWalk, isYes, isNo, isMinLen]
      simp only [Option.bind_eq_bind, Option.bind_some]
      rw [if_neg (by omega), walk]
      rfl

/-- What the audit asks of one op of a program. -/
structure AuditedOp.Valid (programLength : Nat) (ops : List AuditedOp) (op : AuditedOp) : Prop where
  yesIsMinLen : op.yes = op.minLen
  noAligned : 4 ∣ op.no
  noNotShort : op.minLen ≤ op.no
  noNotLong : op.no ≤ op.remaining + 4
  noFits : op.no < 65536
  noOnChain : op.offset + op.no < programLength → ∃ other ∈ ops, other.offset = op.offset + op.no

/-- The audit accepts a program that fits one attribute. -/
structure PassesAudit (order : ByteOrder) (bytes : List UInt8) : Prop where
  attributeFits : bytes.length + 4 < 65536
  opsValid : ∃ ops, auditWalk order bytes.length 0 bytes = some ops ∧
      ∀ op ∈ ops, op.Valid bytes.length ops

/-!
## Code generation with forward labels

Emission only appends instructions and labels.  Every instruction that it adds
goes, on failure, either to one of the targets handed down to it or to a label
of its own that is bound to a later instruction.  These facts are kept as one
relation between the program before and after an emission, with one rule for
each thing the generator does.
-/

def HostAddr.family : HostAddr → UInt8
  | .v4 _ => AF_INET
  | .v6 _ => AF_INET6

/-- Conditions as the lowering builds them. -/
inductive Prim.Valid : Prim → Prop
  | port {code : UInt8} {port : UInt16}
      (known : code = INET_DIAG_BC_S_GE ∨ code = INET_DIAG_BC_S_LE ∨
        code = INET_DIAG_BC_D_GE ∨ code = INET_DIAG_BC_D_LE) :
      (Prim.port code port).Valid
  | host {code prefixLen : UInt8} {addr : HostAddr}
      (known : code = INET_DIAG_BC_S_COND ∨ code = INET_DIAG_BC_D_COND)
      (prefixBounded : prefixLen.toNat ≤ 8 * addr.len) :
      (Prim.host code addr.family prefixLen addr).Valid
  | jmp : Prim.jmp.Valid

/-- Leaves are valid tests, and every disjunction has an alternative. -/
inductive Nnf.Valid : Nnf → Prop
  | and {parts : List Nnf} (each : ∀ part ∈ parts, part.Valid) : (Nnf.and parts).Valid
  | or {parts : List Nnf} (nonempty : parts ≠ []) (each : ∀ part ∈ parts, part.Valid) :
      (Nnf.or parts).Valid
  | leaf {prim : Prim} (valid : prim.Valid) (test : prim ≠ .jmp) : (Nnf.leaf prim).Valid

theorem Prim.size_pos (prim : Prim) : 4 ≤ prim.size := by
  cases prim with
  | port code port => simp [Prim.size]
  | host code family prefixLen addr =>
      simp only [Prim.size]
      omega
  | jmp => simp [Prim.size]

theorem Prim.dvd_size (prim : Prim) : 4 ∣ prim.size := by
  cases prim with
  | port code port => exact ⟨2, rfl⟩
  | host code family prefixLen addr =>
      cases addr with
      | v4 bits => exact ⟨4, rfl⟩
      | v6 bits => exact ⟨7, rfl⟩
  | jmp => exact ⟨1, rfl⟩

theorem Prim.size_le (prim : Prim) : prim.size ≤ 28 := by
  cases prim with
  | port code port => simp [Prim.size]
  | host code family prefixLen addr => cases addr <;> simp [Prim.size, HostAddr.len]
  | jmp => simp [Prim.size]

namespace Program

section

variable (program : Program)

include program

@[simp]
theorem newLabel_instrs : program.newLabel.instrs = program.instrs :=
  rfl

@[simp]
theorem newLabel_labels : program.newLabel.labels = program.labels ++ [none] :=
  rfl

@[simp]
theorem bind_instrs (label : LabelId) : (program.bind label).instrs = program.instrs :=
  rfl

@[simp]
theorem bind_labels (label : LabelId) : (program.bind label).labels =
      program.labels.set label (some program.instrs.length) :=
  rfl

@[simp]
theorem push_instrs (prim : Prim) (target : Target) :
    (program.push prim target).instrs = program.instrs ++ [(prim, target)] :=
  rfl

@[simp]
theorem push_labels (prim : Prim) (target : Target) :
    (program.push prim target).labels = program.labels :=
  rfl

end

/-- A label that is bound after a given instruction, within the program. -/
def BoundAfter (program : Program) (label : LabelId) (index : Nat) : Prop :=
  ∃ bound, program.labels[label]? = some (some bound) ∧ index < bound ∧
      bound ≤ program.instrs.length

/-- What an emission does, given the outer targets that it may use. -/
structure Emits (exits : Target → Prop) (before after : Program) : Prop where
  instrsKept : before.instrs <+: after.instrs
  labelsGrow : before.labels.length ≤ after.labels.length
  labelsKept : ∀ label < before.labels.length, after.labels[label]? = before.labels[label]?
  primsValid : ∀ index, before.instrs.length ≤ index → ∀ prim target,
    after.instrs[index]? = some (prim, target) → prim.Valid
  targetsForward : ∀ index, before.instrs.length ≤ index → ∀ prim target,
    after.instrs[index]? = some (prim, target) → exits target ∨ ∃ label, target = .label label ∧
          before.labels.length ≤ label ∧
          after.BoundAfter label index

namespace Emits

variable {exits : Target → Prop} {before after : Program}

theorem instrs_length_le (emits : Emits exits before after) :
    before.instrs.length ≤ after.instrs.length :=
  emits.instrsKept.length_le

theorem instrs_getElem? (emits : Emits exits before after) {index : Nat}
    (inside : index < before.instrs.length) : after.instrs[index]? = before.instrs[index]? := by
  obtain ⟨added, afterInstrs⟩ := emits.instrsKept
  rw [← afterInstrs, getElem?_append_left inside]

theorem boundAfter (emits : Emits exits before after) {label index : Nat}
    (bound : before.BoundAfter label index) : after.BoundAfter label index := by
  obtain ⟨position, isBound, later, inside⟩ := bound
  have labelInside : label < before.labels.length := (List.getElem?_eq_some_iff.mp isBound).1
  refine ⟨position, ?_, later, ?_⟩
  · rw [emits.labelsKept label labelInside, isBound]
  · exact Nat.le_trans inside emits.instrs_length_le

theorem refl (exits : Target → Prop) (program : Program) : Emits exits program program where
  instrsKept := prefix_refl _
  labelsGrow := Nat.le_refl _
  labelsKept := fun _ _ => rfl
  primsValid := by
    intro index past prim target atIndex
    rw [getElem?_eq_none past] at atIndex
    cases atIndex
  targetsForward := by
    intro index past prim target atIndex
    rw [getElem?_eq_none past] at atIndex
    cases atIndex

theorem weaken {exits moreExits : Target → Prop} (emits : Emits exits before after)
    (allowed : ∀ target, exits target → moreExits target) :
    Emits moreExits before after where
  instrsKept := emits.instrsKept
  labelsGrow := emits.labelsGrow
  labelsKept := emits.labelsKept
  primsValid := emits.primsValid
  targetsForward := by
    intro index past prim target atIndex
    rcases emits.targetsForward index past prim target atIndex with outer | inner
    · exact Or.inl (allowed target outer)
    · exact Or.inr inner

theorem trans {first second third : Program} (left : Emits exits first second)
    (right : Emits exits second third) :
    Emits exits first third where
  instrsKept := left.instrsKept.trans right.instrsKept
  labelsGrow := Nat.le_trans left.labelsGrow right.labelsGrow
  labelsKept := by
    intro label inside
    rw [right.labelsKept label (Nat.lt_of_lt_of_le inside left.labelsGrow),
      left.labelsKept label inside]
  primsValid := by
    intro index past prim target atIndex
    by_cases early : index < second.instrs.length
    · rw [right.instrs_getElem? early] at atIndex
      exact left.primsValid index past prim target atIndex
    · exact right.primsValid index (by omega) prim target atIndex
  targetsForward := by
    intro index past prim target atIndex
    by_cases early : index < second.instrs.length
    · rw [right.instrs_getElem? early] at atIndex
      rcases left.targetsForward index past prim target atIndex with
        outer | ⟨label, isLabel, fresh, bound⟩
      · exact Or.inl outer
      · exact Or.inr ⟨label, isLabel, fresh, right.boundAfter bound⟩
    · rcases right.targetsForward index (by omega) prim target atIndex with
        outer | ⟨label, isLabel, fresh, bound⟩
      · exact Or.inl outer
      · exact Or.inr ⟨label, isLabel, Nat.le_trans left.labelsGrow fresh, bound⟩

theorem push (program : Program) {prim : Prim} {target : Target} (valid : prim.Valid)
    (allowed : exits target) :
    Emits exits program (program.push prim target) where
  instrsKept := prefix_append _ _
  labelsGrow := Nat.le_refl _
  labelsKept := fun _ _ => rfl
  primsValid := by
    intro index past otherPrim otherTarget atIndex
    rw [push_instrs, getElem?_append_right past, getElem?_singleton] at atIndex
    split at atIndex
    · cases atIndex
      exact valid
    · cases atIndex
  targetsForward := by
    intro index past otherPrim otherTarget atIndex
    rw [push_instrs, getElem?_append_right past, getElem?_singleton] at atIndex
    split at atIndex
    · cases atIndex
      exact Or.inl allowed
    · cases atIndex

theorem bindFresh
    (emits : Emits (fun target => exits target ∨ target = .label before.labels.length)
      before.newLabel after) :
    Emits exits before (after.bind before.labels.length) where
  instrsKept := emits.instrsKept
  labelsGrow := by
    have grow := emits.labelsGrow
    simp only [newLabel_labels, length_append, length_singleton] at grow
    rw [bind_labels, length_set]
    omega
  labelsKept := by
    intro label inside
    have kept := emits.labelsKept label (by simp; omega)
    rw [bind_labels, getElem?_set_ne (by omega), kept, newLabel_labels, getElem?_append_left inside]
  primsValid := emits.primsValid
  targetsForward := by
    intro index past prim target atIndex
    have freshInside : before.labels.length < after.labels.length := by
      have grow := emits.labelsGrow
      simp only [newLabel_labels, length_append, length_singleton] at grow
      omega
    have indexInside : index < after.instrs.length := (List.getElem?_eq_some_iff.mp atIndex).1
    rcases emits.targetsForward index past prim target atIndex with
      (outer | isFresh) | ⟨label, isLabel, later, position, isBound, forward⟩
    · exact Or.inl outer
    · refine Or.inr ⟨before.labels.length, isFresh, Nat.le_refl _,
        after.instrs.length, ?_, indexInside, Nat.le_refl _⟩
      rw [bind_labels, getElem?_set_self freshInside]
    · simp only [newLabel_labels, length_append, length_singleton] at later
      refine Or.inr ⟨label, isLabel, by omega, position, ?_, forward⟩
      rw [bind_labels, getElem?_set_ne (by omega), isBound]

end Emits

mutual

theorem emitNnf_emits (program : Program) (nnf : Nnf) (fail : Target) (valid : nnf.Valid) :
    Emits (· = fail) program (program.emitNnf nnf fail) := by
  match nnf, valid with
  | .and parts, .and each =>
      rw [emitNnf]
      exact emitAll_emits program parts fail each
  | .or parts, .or _ each =>
      rw [emitNnf]
      apply Emits.bindFresh
      exact emitAlternatives_emits program.newLabel parts program.labels.length fail each
  | .leaf prim, .leaf primValid _ =>
      rw [emitNnf]
      exact Emits.push program primValid rfl

theorem emitAll_emits (program : Program) (parts : List Nnf) (fail : Target)
    (each : ∀ part ∈ parts, part.Valid) :
    Emits (· = fail) program (program.emitAll parts fail) := by
  match parts, each with
  | [], _ =>
      rw [emitAll]
      exact Emits.refl _ program
  | part :: rest, each =>
      rw [emitAll]
      have partEmits := emitNnf_emits program part fail (each part (mem_cons_self ..))
      have restEmits := emitAll_emits (program.emitNnf part fail) rest fail
        (fun other member => each other (mem_cons_of_mem part member))
      exact partEmits.trans restEmits

theorem emitAlternatives_emits (program : Program) (parts : List Nnf) (done : LabelId)
    (fail : Target) (each : ∀ part ∈ parts, part.Valid) :
    Emits (fun target => target = fail ∨ target = .label done) program
      (program.emitAlternatives parts done fail) := by
  match parts, each with
  | [], _ =>
      rw [emitAlternatives]
      exact Emits.refl _ program
  | [last], each =>
      rw [emitAlternatives]
      exact (emitNnf_emits program last fail (each last (mem_cons_self ..))).weaken
        (fun target isFail => Or.inl isFail)
  | alternative :: next :: rest, each =>
      rw [emitAlternatives]
      have matchedEmits := emitNnf_emits program.newLabel alternative
        (.label program.labels.length) (each alternative (mem_cons_self ..))
      have skippingEmits :
          Emits (fun target =>
              (target = fail ∨ target = .label done) ∨ target = .label program.labels.length)
            program.newLabel
            ((program.newLabel.emitNnf alternative
              (.label program.labels.length)).push .jmp (.label done)) := by
        refine (matchedEmits.weaken ?_).trans (Emits.push _ .jmp ?_)
        · exact fun target isNext => Or.inr isNext
        · exact Or.inl (Or.inr rfl)
      have restEmits := emitAlternatives_emits (((program.newLabel.emitNnf alternative
          (.label program.labels.length)).push .jmp (.label done)).bind program.labels.length)
        (next :: rest) done fail
        (fun other member => each other (mem_cons_of_mem alternative member))
      exact skippingEmits.bindFresh.trans restEmits

end

/-- Every failing instruction rejects or goes to a later one. -/
structure Forward (program : Program) : Prop where
  primsValid : ∀ (index : Nat) (prim : Prim) (target : Target),
    program.instrs[index]? = some (prim, target) → prim.Valid
  targetsForward : ∀ (index : Nat) (prim : Prim) (label : LabelId),
    program.instrs[index]? = some (prim, .label label) → program.BoundAfter label index

theorem forward_emitNnf {nnf : Nnf} (valid : nnf.Valid) : (new.emitNnf nnf .reject).Forward := by
  have emits := emitNnf_emits new nnf .reject valid
  constructor
  · intro index prim target atIndex
    exact emits.primsValid index (Nat.zero_le _) prim target atIndex
  · intro index prim label atIndex
    rcases emits.targetsForward index (Nat.zero_le _) prim (.label label)
      atIndex with isReject | ⟨other, isLabel, _, bound⟩
    · cases isReject
    · cases isLabel
      exact bound

end Program

/-!
## The bytes of a resolved program

Resolution writes each instruction at its offset, with a distance that fits
its field.  The kernel reads the fields of an op back from those bytes.
-/

theorem toBytes_two (order : ByteOrder) (value : Nat) :
    ∃ first second, order.toBytes 2 value = [first, second] :=
  length_eq_two.mp (ByteOrder.toBytes_length order 2 value)

theorem toBytes_wildcard (order : ByteOrder) :
    order.toBytes 4 0xffffffff = [255, 255, 255, 255] := by
  cases order <;> decide

/-- Whether the kernel's test of a condition succeeds on a socket. -/
def Prim.holds (entry : DiagEntry) : Prim → Bool
  | .port code bound =>
      if code = INET_DIAG_BC_S_GE then
        decide (entry.sport ≥ bound.toNat)
      else if code = INET_DIAG_BC_S_LE then
        decide (entry.sport ≤ bound.toNat)
      else if code = INET_DIAG_BC_D_GE then
        decide (entry.dport ≥ bound.toNat)
      else
        decide (entry.dport ≤ bound.toNat)
  | .host code family prefixLen addr =>
      if code = INET_DIAG_BC_S_COND then
        hostCondMatches entry.saddr family prefixLen addr.octets
      else
        hostCondMatches entry.daddr family prefixLen addr.octets
  | .jmp => false

namespace Program

section

variable (order : ByteOrder)

include order

@[simp]
theorem encodeInstr_length (prim : Prim) (yes no : Nat) :
    (encodeInstr order prim yes no).length = prim.size := by
  cases prim with
  | port code port => simp [encodeInstr, Prim.size]
  | host code family prefixLen addr =>
      simp [encodeInstr, Prim.size]
      omega
  | jmp => simp [encodeInstr, Prim.size]

theorem encodeInstr_fields (prim : Prim) (yes no : Nat) : ∃ code payload,
      encodeInstr order prim yes no =
        code :: UInt8.ofNat yes :: (order.toBytes 2 no ++ payload) := by
  cases prim with
  | port code port => exact ⟨code, [0, 0] ++ order.toBytes 2 port.toNat, by simp [encodeInstr]⟩
  | host code family prefixLen addr =>
      exact ⟨code, [family, prefixLen, 0, 0] ++ order.toBytes 4 0xffffffff ++ addr.octets,
        by simp [encodeInstr]⟩
  | jmp => exact ⟨INET_DIAG_BC_JMP, [], by simp [encodeInstr]⟩

theorem opYes_encodeInstr (prim : Prim) (no : Nat) (rest : List UInt8) :
    opYes (encodeInstr order prim prim.size no ++ rest) = some prim.size := by
  obtain ⟨code, payload, shape⟩ := encodeInstr_fields order prim prim.size no
  have small : (UInt8.ofNat prim.size).toNat = prim.size := by
    rw [UInt8.toNat_ofNat']
    have bounded := prim.size_le
    omega
  rw [shape]
  simp [opYes, small]

theorem opNo_encodeInstr (prim : Prim) {yes no : Nat} (rest : List UInt8)
    (fits : no < 65536) : opNo order (encodeInstr order prim yes no ++ rest) = some no := by
  obtain ⟨code, payload, shape⟩ := encodeInstr_fields order prim yes no
  obtain ⟨first, second, twoBytes⟩ := toBytes_two order no
  have readBack : order.ofBytes [first, second] = no := by
    rw [← twoBytes]
    exact order.ofBytes_toBytes fits
  rw [shape, twoBytes]
  simp [opNo, readBack]

theorem opNo_portData (code : UInt8) (port : UInt16) (yes no : Nat) (rest : List UInt8) :
    opNo order ((encodeInstr order (.port code port) yes no ++ rest).drop 4) = some port.toNat := by
  obtain ⟨first, second, twoBytes⟩ := toBytes_two order no
  obtain ⟨low, high, portBytes⟩ := toBytes_two order port.toNat
  have readBack : order.ofBytes [low, high] = port.toNat := by
    rw [← portBytes]
    exact order.ofBytes_toBytes port.toNat_lt
  simp [encodeInstr, twoBytes, portBytes, opNo, readBack]

theorem hostCondHolds_payload (addr : IpAddr) (port : Nat) (prefixLen : UInt8)
    (wanted : HostAddr) (rest : List UInt8) :
    hostCondHolds order addr port
        ([wanted.family, prefixLen, 0, 0] ++ order.toBytes 4 0xffffffff ++ wanted.octets ++ rest) =
      some (hostCondMatches addr wanted.family prefixLen wanted.octets) := by
  have wildcard : order.ofBytes [255, 255, 255, 255] = 0xffffffff := by cases order <;> decide
  have familyLen : addrLen wanted.family = some wanted.len := by cases wanted <;> rfl
  have taken : (wanted.octets ++ rest).take wanted.len = wanted.octets := by
    rw [← wanted.octets_length, take_left]
  rw [toBytes_wildcard]
  simp [hostCondHolds, wildcard, familyLen, taken]

theorem opHolds_encodeInstr (entry : DiagEntry) {prim : Prim}
    (valid : prim.Valid) (yes no : Nat) (rest : List UInt8) :
    opHolds order entry (encodeInstr order prim yes no ++ rest) = some (prim.holds entry) := by
  cases valid with
  | @port code port known =>
      have data := opNo_portData order code port yes no rest
      have head : (encodeInstr order (.port code port) yes no ++ rest).head? = some code := by
        simp [encodeInstr]
      rw [opHolds, head, Option.bind_eq_bind, Option.bind_some, data]
      rcases known with rfl | rfl | rfl | rfl <;> rfl
  | @host code prefixLen addr known prefixBounded =>
      obtain ⟨first, second, twoBytes⟩ := toBytes_two order no
      have payload :
          (encodeInstr order (.host code addr.family prefixLen addr) yes no ++ rest).drop 4 =
            [addr.family, prefixLen, 0, 0] ++ order.toBytes 4 0xffffffff ++
              addr.octets ++ rest := by
        simp [encodeInstr, twoBytes]
      have head :
          (encodeInstr order (.host code addr.family prefixLen addr) yes no ++
              rest).head? = some code := by
        simp [encodeInstr]
      rw [opHolds, head, Option.bind_eq_bind, Option.bind_some, payload,
        hostCondHolds_payload, hostCondHolds_payload]
      rcases known with rfl | rfl <;> rfl
  | jmp => simp [opHolds, encodeInstr, Prim.holds]

theorem opMinLen_encodeInstr {prim : Prim} (valid : prim.Valid) (yes no : Nat)
    (rest : List UInt8) : opMinLen (encodeInstr order prim yes no ++ rest) = some prim.size := by
  cases valid with
  | @port code port known =>
      have head : (encodeInstr order (.port code port) yes no ++ rest).head? = some code := by
        simp [encodeInstr]
      rw [opMinLen, head, Option.bind_eq_bind, Option.bind_some]
      rcases known with rfl | rfl | rfl | rfl <;> rfl
  | @host code prefixLen addr known prefixBounded =>
      obtain ⟨first, second, twoBytes⟩ := toBytes_two order no
      have familyLen : addrLen addr.family = some addr.len := by cases addr <;> rfl
      have notLong : ¬ 8 * addr.len < prefixLen.toNat := Nat.not_lt.mpr prefixBounded
      have payload :
          (encodeInstr order (.host code addr.family prefixLen addr) yes no ++ rest).drop 4 =
            addr.family :: prefixLen ::
              ([0, 0] ++ order.toBytes 4 0xffffffff ++ addr.octets ++ rest) := by
        simp [encodeInstr, twoBytes]
      have head :
          (encodeInstr order (.host code addr.family prefixLen addr) yes no ++
              rest).head? = some code := by
        simp [encodeInstr]
      rw [opMinLen, head, Option.bind_eq_bind, Option.bind_some, payload]
      simp only [familyLen, Option.bind_eq_bind, Option.bind_some, notLong, if_false, Prim.size]
      rcases known with rfl | rfl <;> rfl
  | jmp => simp [opMinLen, encodeInstr, Prim.size]

end

theorem resolveFrom_chunks (program : Program) (order : ByteOrder) {index : Nat}
    {instrs : List (Prim × Target)} {chunks : List (List UInt8)}
    (resolved : program.resolveFrom order index instrs = some chunks) :
    chunks.map List.length = instrs.map (fun instr => instr.1.size) ∧
      ∀ (step : Nat) (prim : Prim) (target : Target), instrs[step]? = some (prim, target) → ∃ no,
            program.distance (program.offsetOf (index + step)) target = some no ∧ no < 65536 ∧
              chunks[step]? = some (encodeInstr order prim prim.size no) := by
  induction instrs generalizing index chunks with
  | nil =>
      rw [resolveFrom] at resolved
      cases resolved
      exact ⟨rfl, fun step prim target atStep => by simp at atStep⟩
  | cons instr rest ih =>
      obtain ⟨prim, target⟩ := instr
      simp only [resolveFrom, tryFrom, Option.bind_eq_bind, Option.bind_eq_some_iff,
        Option.ite_none_right_eq_some, Option.some.injEq, Option.pure_def] at resolved
      obtain ⟨far, isFar, no, ⟨fits, rfl⟩, yes, ⟨_, rfl⟩, others, tail, rfl⟩ := resolved
      obtain ⟨sizes, each⟩ := ih tail
      refine ⟨by simp [sizes], ?_⟩
      intro step otherPrim otherTarget atStep
      cases step with
      | zero =>
          cases atStep
          exact ⟨far, isFar, fits, rfl⟩
      | succ step =>
          obtain ⟨no, isNo, fitsNo, chunk⟩ := each step otherPrim otherTarget atStep
          rw [Nat.add_assoc, Nat.add_comm 1 step] at isNo
          exact ⟨no, isNo, fitsNo, chunk⟩

/-- The bytes of a resolved program, read at instruction offsets. -/
structure Resolved (program : Program) (order : ByteOrder) (bytes : List UInt8) : Prop where
  totalFits : program.totalSize + 8 ≤ 65535
  lengthTotal : bytes.length = program.totalSize
  instrAt : ∀ (index : Nat) (prim : Prim) (target : Target),
    program.instrs[index]? = some (prim, target) → ∃ no,
        program.distance (program.offsetOf index) target = some no ∧ no < 65536 ∧
          bytes.drop (program.offsetOf index) = encodeInstr order prim prim.size no ++
              bytes.drop (program.offsetOf (index + 1))

theorem resolve_resolved {program : Program} {order : ByteOrder} {bytes : List UInt8}
    (isResolved : program.resolve order = some bytes) : program.Resolved order bytes := by
  rw [resolve] at isResolved
  split at isResolved
  · cases isResolved
  · rename_i small
    obtain ⟨chunks, isChunks, rfl⟩ := Option.map_eq_some_iff.mp isResolved
    obtain ⟨sizes, each⟩ := resolveFrom_chunks program order isChunks
    have sameOffsets : ∀ index, Layout.offset List.length chunks index = program.offsetOf index :=
      Layout.offset_congr _ _ sizes
    refine ⟨by omega, ?_, ?_⟩
    · rw [Layout.length_flatten, Layout.total, sizes]
      rfl
    · intro index prim target atIndex
      obtain ⟨no, isNo, fits, chunkAt⟩ := each index prim target atIndex
      rw [Nat.zero_add] at isNo
      obtain ⟨inside, chunk⟩ := List.getElem?_eq_some_iff.mp chunkAt
      refine ⟨no, isNo, fits, ?_⟩
      rw [← sameOffsets, ← sameOffsets, Layout.drop_offset_eq_append chunks index inside, chunk]

end Program

end Nlink.Sockdiag
