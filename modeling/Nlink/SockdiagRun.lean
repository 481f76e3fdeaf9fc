import Nlink.SockdiagEmission

namespace Nlink.Sockdiag

open Foundation List

/-!
# Compiled programs pass the kernel audit

The walk by `yes` visits exactly the instructions, and a label that is bound
to a later instruction is a distance that stays within the program.
-/

namespace Program

variable {index : Nat}

section

variable (program : Program)

include program

theorem offsetOf_succ {prim : Prim} {target : Target}
    (atIndex : program.instrs[index]? = some (prim, target)) :
    program.offsetOf (index + 1) = program.offsetOf index + prim.size := by
  obtain ⟨inside, instr⟩ := List.getElem?_eq_some_iff.mp atIndex
  rw [offsetOf, Layout.offset_succ _ _ _ inside, instr]
  rfl

theorem offsetOf_le_totalSize (index : Nat) : program.offsetOf index ≤ program.totalSize :=
  Layout.offset_le_total _ _ index

theorem dvd_offsetOf (index : Nat) : 4 ∣ program.offsetOf index :=
  Layout.dvd_offset _ _ (fun instr _ => instr.1.dvd_size) index

theorem offsetOf_length : program.offsetOf program.instrs.length = program.totalSize :=
  Layout.offset_length _ _

theorem dvd_totalSize : 4 ∣ program.totalSize := by
  rw [← offsetOf_length]
  exact program.dvd_offsetOf _

theorem destination_of_bound {label bound : Nat}
    (isBound : program.labels[label]? = some (some bound))
    (inside : bound ≤ program.instrs.length) :
    program.destination label = program.offsetOf bound := by
  rw [destination, getD_eq_getElem?_getD, isBound]
  simp only [Option.getD_some]
  split
  · rename_i past
    have atEnd : bound = program.instrs.length := Nat.le_antisymm inside past
    rw [atEnd, offsetOf_length]
  · rfl

end

variable {program : Program}

theorem Forward.distance_cases (forward : program.Forward) {index far : Nat} {prim : Prim}
    {target : Target} (atIndex : program.instrs[index]? = some (prim, target))
    (isFar : program.distance (program.offsetOf index) target = some far) :
    (target = .reject ∧ far = program.totalSize - program.offsetOf index + 4) ∨ ∃ label bound,
        target = .label label ∧ program.labels[label]? = some (some bound) ∧ index < bound ∧
          bound ≤ program.instrs.length ∧
          program.offsetOf index + prim.size ≤ program.offsetOf bound ∧
          far = program.offsetOf bound - program.offsetOf index := by
  cases target with
  | reject =>
      rw [distance] at isFar
      cases isFar
      exact Or.inl ⟨rfl, rfl⟩
  | label label =>
      obtain ⟨bound, isBound, later, inside⟩ := forward.targetsForward index prim label atIndex
      rw [distance, program.destination_of_bound isBound inside] at isFar
      have ordered : program.offsetOf index + prim.size ≤ program.offsetOf bound := by
        rw [← program.offsetOf_succ atIndex]
        exact Layout.offset_mono _ _ later
      rw [if_pos (by omega)] at isFar
      cases isFar
      exact Or.inr ⟨label, bound, rfl, isBound, later, inside, ordered, rfl⟩

/-- The audit's record of the instruction at an index. -/
structure AuditedAt (program : Program) (index : Nat) (op : AuditedOp) : Prop where
  offset : op.offset = program.offsetOf index
  remaining : op.remaining = program.totalSize - program.offsetOf index
  instr : ∃ prim target, program.instrs[index]? = some (prim, target) ∧ op.yes = prim.size ∧
      op.minLen = prim.size ∧
      op.no < 65536 ∧
      program.distance (program.offsetOf index) target = some op.no

variable {order : ByteOrder} {bytes : List UInt8}

theorem Resolved.drop_end (resolved : program.Resolved order bytes) :
    bytes.drop (program.offsetOf program.instrs.length) = [] := by
  rw [offsetOf_length, ← resolved.lengthTotal, drop_length]

theorem offsetOf_lt_totalSize (program : Program) (within : index < program.instrs.length) :
    program.offsetOf index < program.totalSize := by
  obtain ⟨prim, target, atIndex⟩ : ∃ prim target, program.instrs[index]? = some (prim, target) :=
    ⟨_, _, getElem?_eq_getElem within⟩
  have next := program.offsetOf_succ atIndex
  have bounded := program.offsetOf_le_totalSize (index + 1)
  have positive := prim.size_pos
  omega

/-- The ops of a walk are the instructions from an index on. -/
structure VisitsFrom (program : Program) (index : Nat) (ops : List AuditedOp) : Prop where
  audited : ∀ op ∈ ops, ∃ visited, program.AuditedAt visited op
  reached : ∀ visited, index ≤ visited → visited < program.instrs.length →
    ∃ op ∈ ops, op.offset = program.offsetOf visited

theorem VisitsFrom.nil (program : Program) : program.VisitsFrom program.instrs.length [] where
  audited := by simp
  reached := by
    intro visited late early
    omega

theorem VisitsFrom.cons {op : AuditedOp} {ops : List AuditedOp} (opAt : program.AuditedAt index op)
    (visits : program.VisitsFrom (index + 1) ops) :
    program.VisitsFrom index (op :: ops) where
  audited := by
    intro other member
    rcases mem_cons.mp member with rfl | member
    · exact ⟨index, opAt⟩
    · exact visits.audited other member
  reached := by
    intro visited late early
    by_cases first : visited = index
    · exact ⟨op, mem_cons_self .., by rw [first, opAt.offset]⟩
    · obtain ⟨other, member, offset⟩ := visits.reached visited (by omega) early
      exact ⟨other, mem_cons_of_mem _ member, offset⟩

/-- The walk by `yes` from an instruction visits it and all later ones. -/
theorem auditWalk_visits (forward : program.Forward) (resolved : program.Resolved order bytes)
    (fuel index : Nat) (inside : index ≤ program.instrs.length)
    (enough : program.totalSize - program.offsetOf index ≤ fuel) :
    ∃ ops, auditWalk order fuel (program.offsetOf index)
          (bytes.drop (program.offsetOf index)) = some ops ∧
        program.VisitsFrom index ops := by
  induction fuel generalizing index with
  | zero =>
      rcases Nat.lt_or_eq_of_le inside with within | rfl
      · have before := program.offsetOf_lt_totalSize within
        omega
      · refine ⟨[], ?_, VisitsFrom.nil program⟩
        rw [resolved.drop_end, auditWalk]
  | succ fuel ih =>
      rcases Nat.lt_or_eq_of_le inside with within | rfl
      · obtain ⟨prim, target, atIndex⟩ :
            ∃ prim target, program.instrs[index]? = some (prim, target) :=
          ⟨_, _, getElem?_eq_getElem within⟩
        obtain ⟨no, isNo, fits, bytesAt⟩ := resolved.instrAt index prim target atIndex
        have valid := forward.primsValid index prim target atIndex
        have next := program.offsetOf_succ atIndex
        have bounded := program.offsetOf_le_totalSize (index + 1)
        have positive := prim.size_pos
        have aligned := prim.dvd_size
        have lengthAt : (bytes.drop (program.offsetOf index)).length =
              program.totalSize - program.offsetOf index := by
          rw [length_drop, resolved.lengthTotal]
        obtain ⟨ops, walk, visits⟩ := ih (index + 1) within (by omega)
        refine ⟨{ offset := program.offsetOf index
                  remaining := program.totalSize - program.offsetOf index
                  yes := prim.size
                  no := no
                  minLen := prim.size } :: ops, ?_, visits.cons ?_⟩
        · rw [← lengthAt]
          apply auditWalk_step
          · rw [bytesAt]
            exact opYes_encodeInstr order prim no _
          · rw [bytesAt]
            exact opNo_encodeInstr order prim _ fits
          · rw [bytesAt]
            exact opMinLen_encodeInstr order valid _ _ _
          · exact Nat.le_refl _
          · omega
          · omega
          · rw [drop_drop, ← next]
            exact walk
        · exact ⟨rfl, rfl, prim, target, atIndex, rfl, rfl, fits, isNo⟩
      · refine ⟨[], ?_, VisitsFrom.nil program⟩
        rw [resolved.drop_end, auditWalk]

theorem Forward.passesAudit (forward : program.Forward) (resolved : program.Resolved order bytes) :
    PassesAudit order bytes := by
  have total := resolved.totalFits
  obtain ⟨ops, walk, visits⟩ :=
    auditWalk_visits forward resolved bytes.length 0 (Nat.zero_le _)
      (by rw [resolved.lengthTotal]; omega)
  refine ⟨by rw [resolved.lengthTotal]; omega, ops, ?_, ?_⟩
  · simpa [offsetOf] using walk
  · intro op member
    obtain ⟨index, audited⟩ := visits.audited op member
    obtain ⟨prim, target, atIndex, yes, minLen, fits, isNo⟩ := audited.instr
    have next := program.offsetOf_succ atIndex
    have bounded := program.offsetOf_le_totalSize (index + 1)
    have indexAligned := program.dvd_offsetOf index
    have totalAligned := program.dvd_totalSize
    have opOffset := audited.offset
    have opRemaining := audited.remaining
    rcases forward.distance_cases atIndex isNo with
      ⟨_, far⟩ | ⟨label, bound, _, _, _, within, ordered, far⟩
    · exact
        { yesIsMinLen := by omega
          noAligned := by omega
          noNotShort := by omega
          noNotLong := by omega
          noFits := fits
          noOnChain := by
            intro insideProgram
            rw [resolved.lengthTotal] at insideProgram
            omega }
    · have boundAligned := program.dvd_offsetOf bound
      have boundLe := program.offsetOf_le_totalSize bound
      exact
        { yesIsMinLen := by omega
          noAligned := by omega
          noNotShort := by omega
          noNotLong := by omega
          noFits := fits
          noOnChain := by
            intro insideProgram
            have destination : op.offset + op.no = program.offsetOf bound := by omega
            rw [destination, resolved.lengthTotal, ← offsetOf_length] at insideProgram
            rw [destination]
            exact visits.reached bound (Nat.zero_le _)
              (Layout.index_lt_of_offset_lt _ _ insideProgram) }

end Program

variable {nnf : Nnf}

theorem lowerPortCmp_valid {isSource : Bool} {comparison : Comparison} {port : UInt16}
    (lowered : lowerPortCmp isSource comparison port = some nnf) : nnf.Valid := by
  have leafValid : ∀ code bound,
      code = (if isSource then INET_DIAG_BC_S_GE else INET_DIAG_BC_D_GE) ∨
        code = (if isSource then INET_DIAG_BC_S_LE else INET_DIAG_BC_D_LE) →
        (Nnf.leaf (.port code bound)).Valid := by
    intro code bound known
    refine .leaf (.port ?_) (by simp)
    cases isSource with
    | true => rcases known with rfl | rfl <;> simp
    | false => rcases known with rfl | rfl <;> simp
  have pairValid : ∀ first second,
      (∀ part ∈ [Nnf.leaf (.port (if isSource then INET_DIAG_BC_S_GE else INET_DIAG_BC_D_GE) first),
        Nnf.leaf (.port (if isSource then INET_DIAG_BC_S_LE else INET_DIAG_BC_D_LE) second)],
        part.Valid) := by
    intro first second part member
    simp only [mem_cons, not_mem_nil, or_false] at member
    rcases member with rfl | rfl
    · exact leafValid _ _ (Or.inl rfl)
    · exact leafValid _ _ (Or.inr rfl)
  cases comparison with
  | eq =>
      cases lowered
      exact .and (pairValid port port)
  | ge =>
      cases lowered
      exact leafValid _ _ (Or.inl rfl)
  | le =>
      cases lowered
      exact leafValid _ _ (Or.inr rfl)
  | gt =>
      obtain ⟨bound, _, rfl⟩ := Option.map_eq_some_iff.mp lowered
      exact leafValid _ _ (Or.inl rfl)
  | lt =>
      obtain ⟨bound, _, rfl⟩ := Option.map_eq_some_iff.mp lowered
      exact leafValid _ _ (Or.inr rfl)
  | ne =>
      rw [lowerPortCmp] at lowered
      simp only at lowered
      split at lowered
      · rename_i lo hi _ _
        cases lowered
        refine .or (by simp) ?_
        intro part member
        apply pairValid hi lo part
        simpa [or_comm] using member
      · cases lowered
        exact leafValid _ _ (Or.inl rfl)
      · cases lowered
        exact leafValid _ _ (Or.inr rfl)
      · cases lowered

theorem portParts_valid {isSource : Bool} {port : Option UInt16} {parts : List Nnf}
    (built : portParts isSource port = some parts) : ∀ part ∈ parts, part.Valid := by
  cases port with
  | none =>
      cases built
      simp
  | some port =>
      rw [portParts] at built
      obtain ⟨nnf, lowered, rfl⟩ := Option.map_eq_some_iff.mp built
      simpa using lowerPortCmp_valid lowered

theorem lowerHost_valid (isSource : Bool) (addr : IpAddr) (prefixLen : UInt8) :
    (Nnf.leaf (lowerHost isSource addr prefixLen)).Valid := by
  have minLe : ∀ limit : UInt8, (min prefixLen limit).toNat ≤ limit.toNat := by
    intro limit
    change (if prefixLen ≤ limit then prefixLen else limit).toNat ≤ _
    split
    · exact UInt8.le_iff_toNat_le.mp ‹prefixLen ≤ limit›
    · exact Nat.le_refl _
  cases addr with
  | v4 bits =>
      refine .leaf ?_ (by simp [lowerHost])
      exact @Prim.Valid.host _ _ (.v4 bits) (by cases isSource <;> simp) (minLe 32)
  | v6 bits =>
      refine .leaf ?_ (by simp [lowerHost])
      exact @Prim.Valid.host _ _ (.v6 bits) (by cases isSource <;> simp) (minLe 128)

theorem pair_valid {left right : Nnf} (leftValid : left.Valid) (rightValid : right.Valid) :
    ∀ part ∈ [left, right], part.Valid := by
  intro part member
  simp only [mem_cons, not_mem_nil, or_false] at member
  rcases member with rfl | rfl
  · exact leftValid
  · exact rightValid

theorem lower_valid {expr : FilterExpr} {negated : Bool} (lowered : lower expr negated = some nnf) :
    nnf.Valid := by
  induction expr generalizing negated nnf with
  | sport comparison port => exact lowerPortCmp_valid lowered
  | dport comparison port => exact lowerPortCmp_valid lowered
  | src addr prefixLen =>
      cases negated with
      | true => cases lowered
      | false =>
          cases lowered
          exact lowerHost_valid true addr prefixLen
  | dst addr prefixLen =>
      cases negated with
      | true => cases lowered
      | false =>
          cases lowered
          exact lowerHost_valid false addr prefixLen
  | state state => cases lowered
  | and left right leftHypothesis rightHypothesis =>
      simp only [lower, Option.bind_eq_bind, Option.bind_eq_some_iff,
        Option.pure_def, Option.some.injEq] at lowered
      obtain ⟨leftNnf, leftLowered, rightNnf, rightLowered, rfl⟩ := lowered
      have both := pair_valid (leftHypothesis leftLowered) (rightHypothesis rightLowered)
      cases negated with
      | true => exact .or (by simp) both
      | false => exact .and both
  | or left right leftHypothesis rightHypothesis =>
      simp only [lower, Option.bind_eq_bind, Option.bind_eq_some_iff,
        Option.pure_def, Option.some.injEq] at lowered
      obtain ⟨leftNnf, leftLowered, rightNnf, rightLowered, rfl⟩ := lowered
      have both := pair_valid (leftHypothesis leftLowered) (rightHypothesis rightLowered)
      cases negated with
      | true => exact .and both
      | false => exact .or (by simp) both
  | not inner innerHypothesis => exact innerHypothesis lowered

theorem lowerParts_valid (parts : List FilterExpr) : (Nnf.and (lowerParts parts)).Valid := by
  refine .and ?_
  intro part member
  obtain ⟨expr, _, lowered⟩ := mem_filterMap.mp member
  exact lower_valid lowered

theorem assemble_passesAudit {order : ByteOrder} {bytes : List UInt8} (valid : nnf.Valid)
    (assembled : assemble order nnf = some bytes) : PassesAudit order bytes :=
  (Program.forward_emitNnf valid).passesAudit (Program.resolve_resolved assembled)

theorem compileFilter_bytecode {order : ByteOrder} {expr : FilterExpr} {bytes : List UInt8}
    (compiled : (compileFilter order expr).bytecode = some bytes) :
    assemble order (.and (lowerParts (Split.of expr).bcParts)) = some bytes := by
  simp only [compileFilter] at compiled
  split at compiled
  · cases compiled
  · exact compiled

/-- Whatever the compiler emits, the kernel's audit accepts it. -/
theorem emitted_passesAudit (order : ByteOrder) (expr : FilterExpr) (sport dport : Option UInt16)
    (bytes : List UInt8)
    (emitted : compile order expr = some bytes ∨ (compileFilter order expr).bytecode = some bytes ∨
      forPorts order sport dport = some bytes) : PassesAudit order bytes := by
  rcases emitted with compiled | compiled | compiled
  · simp only [compile, Option.bind_eq_bind, Option.bind_eq_some_iff] at compiled
    obtain ⟨nnf, lowered, assembled⟩ := compiled
    exact assemble_passesAudit (lower_valid lowered) assembled
  · exact assemble_passesAudit (lowerParts_valid _) (compileFilter_bytecode compiled)
  · simp only [forPorts, Option.bind_eq_bind, Option.bind_eq_some_iff] at compiled
    obtain ⟨sourceParts, isSource, destinationParts, isDestination, built⟩ := compiled
    have sourceValid := portParts_valid isSource
    have destinationValid := portParts_valid isDestination
    split at built
    · cases built
    · refine assemble_passesAudit (.and ?_) built
      intro part member
      rcases mem_append.mp member with fromSource | fromDestination
      · exact sourceValid part fromSource
      · exact destinationValid part fromDestination

/-- The program for source port 22 passes. -/
theorem emitted_passesAudit_port22 : PassesAudit .little
      [2, 8, 20, 0, 0, 0, 22, 0, 3, 8, 12, 0, 0, 0, 22, 0] :=
  emitted_passesAudit .little (.sport .eq 22) none none _ (Or.inl (by decide))

/-!
## What compiled programs compute

The code of a form is followed from its first instruction: it falls through
when the form holds of a socket and otherwise goes where its failure target
goes.  The walk over instructions is then carried to the kernel's walk over
bytes.
-/

mutual

/-- Whether a form holds of a socket, by the kernel's own tests. -/
def Nnf.holds (entry : DiagEntry) : Nnf → Bool
  | .and parts => Nnf.allHold entry parts
  | .or parts => Nnf.anyHolds entry parts
  | .leaf prim => prim.holds entry

def Nnf.allHold (entry : DiagEntry) : List Nnf → Bool
  | [] => true
  | part :: rest => part.holds entry && Nnf.allHold entry rest

def Nnf.anyHolds (entry : DiagEntry) : List Nnf → Bool
  | [] => false
  | part :: rest => part.holds entry || Nnf.anyHolds entry rest

end

namespace Program

/-- Where a target leads: to an instruction or the end, or nowhere. -/
def landing (program : Program) : Target → Option Nat
  | .reject => none
  | .label label => program.labels.getD label none

/-- A walk over instructions, from an index to an index or to rejection. -/
inductive Runs (program : Program) (entry : DiagEntry) : Nat → Option Nat → Prop
  | here (index : Nat) : Runs program entry index (some index)
  | pass {index : Nat} {prim : Prim} {target : Target} {outcome : Option Nat}
      (atIndex : program.instrs[index]? = some (prim, target)) (holds : prim.holds entry = true)
      (next : Runs program entry (index + 1) outcome) :
      Runs program entry index outcome
  | jump {index destination : Nat} {prim : Prim} {target : Target} {outcome : Option Nat}
      (atIndex : program.instrs[index]? = some (prim, target)) (fails : prim.holds entry = false)
      (lands : program.landing target = some destination)
      (next : Runs program entry destination outcome) :
      Runs program entry index outcome
  | reject {index : Nat} {prim : Prim} {target : Target}
      (atIndex : program.instrs[index]? = some (prim, target)) (fails : prim.holds entry = false)
      (lands : program.landing target = none) :
      Runs program entry index none

theorem Runs.trans {program : Program} {entry : DiagEntry} {first middle : Nat}
    {outcome : Option Nat} (left : program.Runs entry first (some middle))
    (right : program.Runs entry middle outcome) : program.Runs entry first outcome := by
  generalize reached : some middle = between at left
  induction left with
  | here index =>
      cases reached
      exact right
  | pass atIndex holds _ ih => exact .pass atIndex holds (ih reached)
  | jump atIndex fails lands _ ih => exact .jump atIndex fails lands (ih reached)
  | reject atIndex fails lands => cases reached

theorem Runs.single {program : Program} (entry : DiagEntry) {index : Nat} {prim : Prim}
    {target : Target} (atIndex : program.instrs[index]? = some (prim, target)) :
    program.Runs entry index
      (if prim.holds entry then some (index + 1)
        else program.landing target) := by
  cases holds : prim.holds entry with
  | true => exact .pass atIndex holds (.here _)
  | false =>
      cases lands : program.landing target with
      | none => exact .reject atIndex holds lands
      | some destination => exact .jump atIndex holds lands (.here _)

/-- The code added by an emission stands in a final program, with the labels
that the emission added still bound as it bound them. -/
structure Embedded (before after final : Program) : Prop where
  instrs : after.instrs <+: final.instrs
  labels : ∀ label, before.labels.length ≤ label → label < after.labels.length →
    final.labels[label]? = after.labels[label]?

namespace Embedded

variable {exits : Target → Prop}

theorem left {first second third final : Program} (right : Emits exits second third)
    (embedded : Embedded first third final) :
    Embedded first second final where
  instrs := right.instrsKept.trans embedded.instrs
  labels := by
    intro label fresh inside
    rw [embedded.labels label fresh (Nat.lt_of_lt_of_le inside right.labelsGrow),
      right.labelsKept label inside]

theorem right {first second third final : Program} (left : Emits exits first second)
    (embedded : Embedded first third final) :
    Embedded second third final where
  instrs := embedded.instrs
  labels :=
    fun label fresh inside => embedded.labels label (Nat.le_trans left.labelsGrow fresh) inside

variable {before after final : Program}

theorem ofBindFresh
    (embedded : Embedded before (after.bind before.labels.length) final) :
    Embedded before.newLabel after final where
  instrs := embedded.instrs
  labels := by
    intro label fresh inside
    simp only [newLabel_labels, length_append, length_singleton] at fresh
    rw [embedded.labels label (by omega) (by simpa using inside),
      bind_labels, getElem?_set_ne (by omega)]

theorem landing_bindFresh (emits : Emits exits before.newLabel after)
    (embedded : Embedded before (after.bind before.labels.length) final) :
    final.landing (.label before.labels.length) = some after.instrs.length := by
  have inside : before.labels.length < after.labels.length := by
    have grow := emits.labelsGrow
    simp only [newLabel_labels, length_append, length_singleton] at grow
    omega
  have isBound := embedded.labels before.labels.length (Nat.le_refl _) (by simpa using inside)
  rw [bind_labels, getElem?_set_self inside] at isBound
  rw [landing, getD_eq_getElem?_getD, isBound]
  rfl

theorem getElem? (embedded : Embedded before after final) {index : Nat} {prim : Prim}
    {target : Target} (atIndex : after.instrs[index]? = some (prim, target)) :
    final.instrs[index]? = some (prim, target) := by
  obtain ⟨others, shape⟩ := embedded.instrs
  have inside := (List.getElem?_eq_some_iff.mp atIndex).1
  rw [← shape, getElem?_append_left inside, atIndex]

end Embedded

mutual

theorem emitNnf_runs (program final : Program) (entry : DiagEntry) (nnf : Nnf) (fail : Target)
    (valid : nnf.Valid) (embedded : Embedded program (program.emitNnf nnf fail) final) :
    final.Runs entry program.instrs.length
      (if nnf.holds entry then
        some (program.emitNnf nnf fail).instrs.length
      else
        final.landing fail) := by
  match nnf, valid with
  | .and parts, .and each =>
      rw [emitNnf] at embedded ⊢
      rw [Nnf.holds]
      exact emitAll_runs program final entry parts fail each embedded
  | .or parts, .or nonempty each =>
      rw [emitNnf] at embedded ⊢
      rw [Nnf.holds]
      have emits := emitAlternatives_emits program.newLabel parts program.labels.length fail each
      exact emitAlternatives_runs program.newLabel final entry parts
        program.labels.length fail nonempty each embedded.ofBindFresh
        (embedded.landing_bindFresh emits)
  | .leaf prim, .leaf primValid _ =>
      rw [emitNnf] at embedded ⊢
      rw [Nnf.holds, push_instrs, length_append, length_singleton]
      refine Runs.single entry (embedded.getElem? ?_)
      simp

theorem emitAll_runs (program final : Program) (entry : DiagEntry) (parts : List Nnf)
    (fail : Target) (each : ∀ part ∈ parts, part.Valid)
    (embedded : Embedded program (program.emitAll parts fail) final) :
    final.Runs entry program.instrs.length
      (if Nnf.allHold entry parts then
        some (program.emitAll parts fail).instrs.length
      else
        final.landing fail) := by
  match parts, each with
  | [], _ =>
      rw [emitAll, Nnf.allHold]
      exact .here _
  | part :: rest, each =>
      rw [emitAll] at embedded ⊢
      have partValid := each part (mem_cons_self ..)
      have restValid : ∀ other ∈ rest, other.Valid :=
        fun other member => each other (mem_cons_of_mem part member)
      have partEmits := emitNnf_emits program part fail partValid
      have restEmits := emitAll_emits (program.emitNnf part fail) rest fail restValid
      have partRuns := emitNnf_runs program final entry part fail partValid
        (embedded.left restEmits)
      have restRuns := emitAll_runs (program.emitNnf part fail) final entry
        rest fail restValid (embedded.right partEmits)
      rw [Nnf.allHold]
      cases holds : part.holds entry with
      | true =>
          rw [holds] at partRuns
          exact partRuns.trans restRuns
      | false =>
          rw [holds] at partRuns
          exact partRuns

theorem emitAlternatives_runs (program final : Program) (entry : DiagEntry) (parts : List Nnf)
    (done : LabelId) (fail : Target) (nonempty : parts ≠ []) (each : ∀ part ∈ parts, part.Valid)
    (embedded : Embedded program (program.emitAlternatives parts done fail) final)
    (doneLands : final.landing (.label done) =
      some (program.emitAlternatives parts done fail).instrs.length) :
    final.Runs entry program.instrs.length
      (if Nnf.anyHolds entry parts then
        some (program.emitAlternatives parts done fail).instrs.length
      else
        final.landing fail) := by
  match parts, nonempty, each with
  | [last], _, each =>
      rw [emitAlternatives] at embedded ⊢
      rw [Nnf.anyHolds, Nnf.anyHolds, Bool.or_false]
      exact emitNnf_runs program final entry last fail (each last (mem_cons_self ..)) embedded
  | alternative :: next :: rest, _, each =>
      rw [emitAlternatives] at embedded doneLands ⊢
      have alternativeValid := each alternative (mem_cons_self ..)
      have othersValid : ∀ other ∈ next :: rest, other.Valid :=
        fun other member => each other (mem_cons_of_mem alternative member)
      have matchedEmits := emitNnf_emits program.newLabel alternative
        (.label program.labels.length) alternativeValid
      -- The jump over the remaining alternatives.
      have jumpEmits : Emits (fun _ => True)
            (program.newLabel.emitNnf alternative (.label program.labels.length))
            ((program.newLabel.emitNnf alternative
              (.label program.labels.length)).push .jmp (.label done)) :=
        Emits.push _ Prim.Valid.jmp trivial
      have skippingEmits := (matchedEmits.weaken (fun _ _ => trivial)).trans jumpEmits
      have boundEmits : Emits (fun _ => True) program (((program.newLabel.emitNnf alternative
            (.label program.labels.length)).push .jmp (.label done)).bind program.labels.length) :=
        (skippingEmits.weaken (fun _ _ => Or.inl trivial)).bindFresh
      have othersEmits := emitAlternatives_emits (((program.newLabel.emitNnf alternative
          (.label program.labels.length)).push .jmp (.label done)).bind program.labels.length)
        (next :: rest) done fail othersValid
      have boundEmbedded := embedded.left othersEmits
      have nextLands := boundEmbedded.landing_bindFresh skippingEmits
      have skippingEmbedded := boundEmbedded.ofBindFresh
      have alternativeRuns := emitNnf_runs program.newLabel final entry
        alternative (.label program.labels.length) alternativeValid
        (skippingEmbedded.left jumpEmits)
      have othersRuns := emitAlternatives_runs _ final entry (next :: rest)
        done fail (by simp) othersValid (embedded.right boundEmits) doneLands
      have jumpAt :
          final.instrs[(program.newLabel.emitNnf alternative
            (.label program.labels.length)).instrs.length]? = some (.jmp, .label done) :=
        skippingEmbedded.getElem? (by simp)
      have jumpRuns := Runs.single entry jumpAt
      rw [Nnf.anyHolds]
      cases holds : alternative.holds entry with
      | true =>
          rw [holds] at alternativeRuns
          rw [doneLands] at jumpRuns
          exact alternativeRuns.trans jumpRuns
      | false =>
          rw [holds] at alternativeRuns
          simp only [Bool.false_eq_true, if_false] at alternativeRuns
          rw [nextLands] at alternativeRuns
          exact alternativeRuns.trans othersRuns

end

theorem emitNnf_new_runs (entry : DiagEntry) {nnf : Nnf} (valid : nnf.Valid) :
    (new.emitNnf nnf .reject).Runs entry 0
      (if nnf.holds entry then
        some (new.emitNnf nnf .reject).instrs.length
      else
        none) := by
  exact emitNnf_runs new (new.emitNnf nnf .reject) entry nnf .reject valid
    ⟨prefix_refl _, fun _ _ _ => rfl⟩

end Program

theorem bcRun_step {order : ByteOrder} {entry : DiagEntry} {fuel distance : Nat} {op : List UInt8}
    {holds : Bool} (isHolds : opHolds order entry op = some holds)
    (isDistance : (if holds then opYes op else opNo order op) = some distance) :
    bcRun order entry (fuel + 1) op =
      if distance ≤ op.length then
        bcRun order entry fuel (op.drop distance)
      else
        some false := by
  cases op with
  | nil => cases isHolds
  | cons head tail =>
      rw [bcRun, isHolds]
      simp only [Option.bind_eq_bind, Option.bind_some]
      cases holds with
      | true =>
          rw [if_pos rfl] at isDistance ⊢
          rw [isDistance]
          rfl
      | false =>
          rw [if_neg (by simp)] at isDistance ⊢
          rw [isDistance]
          rfl

theorem bcRun_nil (order : ByteOrder) (entry : DiagEntry) (fuel : Nat) :
    bcRun order entry fuel [] = some true := by
  cases fuel <;> rfl

namespace Program

/-- One step of the kernel's walk, from an instruction: by the size of its op
if it holds, and by the distance of its target if not. -/
theorem Resolved.bcRun_instr {program : Program} {order : ByteOrder} {bytes : List UInt8}
    (forward : program.Forward) (resolved : program.Resolved order bytes) (entry : DiagEntry)
    {index : Nat} {prim : Prim} {target : Target}
    (atIndex : program.instrs[index]? = some (prim, target)) :
    ∃ no, program.distance (program.offsetOf index) target = some no ∧
      ∀ fuel distance, (if prim.holds entry then prim.size else no) = distance →
        bcRun order entry (fuel + 1) (bytes.drop (program.offsetOf index)) =
          if distance ≤ program.totalSize - program.offsetOf index then
            bcRun order entry fuel (bytes.drop (program.offsetOf index + distance))
          else
            some false := by
  obtain ⟨no, isNo, fits, bytesAt⟩ := resolved.instrAt index prim target atIndex
  have valid := forward.primsValid index prim target atIndex
  refine ⟨no, isNo, fun fuel distance isDistance => ?_⟩
  have holds : opHolds order entry (bytes.drop (program.offsetOf index)) =
      some (prim.holds entry) := by
    rw [bytesAt, opHolds_encodeInstr order entry valid]
  rw [@bcRun_step order entry fuel distance _ _ holds, length_drop, resolved.lengthTotal, drop_drop]
  subst isDistance
  rw [bytesAt]
  split
  · exact opYes_encodeInstr order prim no _
  · exact opNo_encodeInstr order prim _ fits

/-- The kernel's walk over bytes follows the walk over instructions. -/
theorem Runs.bcRun_eq {program : Program} {order : ByteOrder} {entry : DiagEntry}
    {bytes : List UInt8} (forward : program.Forward) (resolved : program.Resolved order bytes)
    {index : Nat} {outcome : Option Nat} (runs : program.Runs entry index outcome)
    (ends : outcome = none ∨ outcome = some program.instrs.length) (fuel : Nat)
    (enough : program.totalSize - program.offsetOf index ≤ fuel) :
    bcRun order entry fuel (bytes.drop (program.offsetOf index)) = some outcome.isSome := by
  induction runs generalizing fuel with
  | here index =>
      have atEnd : index = program.instrs.length := by simpa using ends
      rw [atEnd, resolved.drop_end, bcRun_nil]
      rfl
  | @pass index prim target outcome atIndex holds _ ih =>
      obtain ⟨no, _, step⟩ := resolved.bcRun_instr forward entry atIndex
      have next := program.offsetOf_succ atIndex
      have bounded := program.offsetOf_le_totalSize (index + 1)
      have positive := prim.size_pos
      obtain ⟨fuel, rfl⟩ : ∃ less, fuel = less + 1 := ⟨fuel - 1, by omega⟩
      rw [step fuel prim.size (if_pos holds), if_pos (by omega), ← next]
      exact ih ends fuel (by omega)
  | @jump index destination prim target outcome atIndex fails lands _ ih =>
      obtain ⟨no, isNo, step⟩ := resolved.bcRun_instr forward entry atIndex
      have positive := prim.size_pos
      rcases forward.distance_cases atIndex isNo with
        ⟨rfl, _⟩ | ⟨label, bound, rfl, isBound, _, _, ordered, far⟩
      · cases lands
      · have isDestination : bound = destination := by
          rw [landing, getD_eq_getElem?_getD, isBound] at lands
          simpa using lands
        subst isDestination
        have boundLe := program.offsetOf_le_totalSize bound
        obtain ⟨fuel, rfl⟩ : ∃ less, fuel = less + 1 := ⟨fuel - 1, by omega⟩
        rw [step fuel no (if_neg (by simp [fails])), if_pos (by omega),
          show program.offsetOf index + no = program.offsetOf bound by omega]
        exact ih ends fuel (by omega)
  | @reject index prim target atIndex fails lands =>
      obtain ⟨no, isNo, step⟩ := resolved.bcRun_instr forward entry atIndex
      have before := program.offsetOf_lt_totalSize (List.getElem?_eq_some_iff.mp atIndex).1
      rcases forward.distance_cases atIndex isNo with ⟨rfl, far⟩ | ⟨label, bound, rfl, isBound, _⟩
      · obtain ⟨fuel, rfl⟩ : ∃ less, fuel = less + 1 := ⟨fuel - 1, by omega⟩
        -- The distance overshoots the end by one op.
        rw [step fuel no (if_neg (by simp [fails])), if_neg (by omega)]
        rfl
      · rw [landing, getD_eq_getElem?_getD, isBound] at lands
        cases lands

end Program

theorem bcRun_assemble {order : ByteOrder} (entry : DiagEntry) {nnf : Nnf} {bytes : List UInt8}
    (valid : nnf.Valid) (assembled : assemble order nnf = some bytes) {fuel : Nat}
    (enough : bytes.length ≤ fuel) : bcRun order entry fuel bytes = some (nnf.holds entry) := by
  have forward := Program.forward_emitNnf valid
  have resolved := Program.resolve_resolved assembled
  have runs := Program.emitNnf_new_runs entry valid
  have total := resolved.lengthTotal
  have followed := Program.Runs.bcRun_eq forward resolved runs
    (by cases nnf.holds entry <;> simp) fuel (by omega)
  simp only [Program.offsetOf, Layout.offset_zero, drop_zero] at followed
  rw [followed]
  cases nnf.holds entry <;> rfl

end Nlink.Sockdiag
