import Nlink.SockdiagRun

namespace Nlink.Sockdiag

open Foundation List

/-!
# Kernel-side filtering agrees with the client's evaluation

Lowering over-approximates: a socket that an expression matches satisfies the
lowered form, and the converse holds where the form is exact.  The conjuncts
of an expression are split between the state mask and the program, so a
compiled filter never loses a socket and is exact when it says so.
-/

theorem flip_apply (comparison : Comparison) (lhs rhs : UInt16) :
    (flip comparison).apply lhs rhs = !comparison.apply lhs rhs := by
  cases comparison <;>
    simp only [flip, Comparison.apply, bne, Bool.not_not, ge_iff_le,
      gt_iff_lt, ← decide_not, UInt16.not_lt, UInt16.not_le]

def InetSocket.portOf (socket : InetSocket) (isSource : Bool) : UInt16 :=
  if isSource then socket.localAddr.port else socket.remoteAddr.port

theorem holds_ge (socket : InetSocket) (isSource : Bool) (bound : UInt16) : Prim.holds socket.entry
        (.port (if isSource then INET_DIAG_BC_S_GE else INET_DIAG_BC_D_GE) bound) =
      decide (bound.toNat ≤ (socket.portOf isSource).toNat) := by
  cases isSource <;> rfl

theorem holds_le (socket : InetSocket) (isSource : Bool) (bound : UInt16) : Prim.holds socket.entry
        (.port (if isSource then INET_DIAG_BC_S_LE else INET_DIAG_BC_D_LE) bound) =
      decide ((socket.portOf isSource).toNat ≤ bound.toNat) := by
  cases isSource <;> rfl

theorem checkedAdd_one {port bound : UInt16} (isBound : checkedAdd port 1 = some bound) :
    bound.toNat = port.toNat + 1 := by
  rw [checkedAdd] at isBound
  split at isBound
  · rename_i fits
    have one : (1 : UInt16).toNat = 1 := rfl
    cases isBound
    rw [UInt16.toNat_add]
    omega
  · cases isBound

variable {port : UInt16}

theorem checkedAdd_one_eq_none (noBound : checkedAdd port 1 = none) : port.toNat = 65535 := by
  rw [checkedAdd] at noBound
  split at noBound
  · cases noBound
  · have one : (1 : UInt16).toNat = 1 := rfl
    have small := port.toNat_lt
    omega

theorem checkedSub_one {port bound : UInt16} (isBound : checkedSub port 1 = some bound) :
    bound.toNat + 1 = port.toNat := by
  rw [checkedSub] at isBound
  split at isBound
  · rename_i ordered
    have one : (1 : UInt16).toNat = 1 := rfl
    cases isBound
    rw [UInt16.toNat_sub_of_le _ _ (UInt16.le_iff_toNat_le.mpr ordered)]
    omega
  · cases isBound

theorem checkedSub_one_eq_none (noBound : checkedSub port 1 = none) : port.toNat = 0 := by
  rw [checkedSub] at noBound
  split at noBound
  · cases noBound
  · have one : (1 : UInt16).toNat = 1 := rfl
    omega

variable {nnf : Nnf}

/-- A lowered port comparison holds exactly when the comparison does. -/
theorem lowerPortCmp_holds (socket : InetSocket) {isSource : Bool} {comparison : Comparison}
    (lowered : lowerPortCmp isSource comparison port = some nnf) :
    nnf.holds socket.entry = comparison.apply (socket.portOf isSource) port := by
  have small := (socket.portOf isSource).toNat_lt
  cases comparison with
  | eq =>
      cases lowered
      simp only [Nnf.holds, Nnf.allHold, holds_ge, holds_le, Bool.and_true, Comparison.apply]
      rw [Bool.eq_iff_iff, Bool.and_eq_true, decide_eq_true_iff,
        decide_eq_true_iff, beq_iff_eq, ← UInt16.toNat_inj]
      omega
  | ge =>
      cases lowered
      simp only [Nnf.holds, holds_ge, Comparison.apply, ge_iff_le, UInt16.le_iff_toNat_le]
  | le =>
      cases lowered
      simp only [Nnf.holds, holds_le, Comparison.apply, UInt16.le_iff_toNat_le]
  | gt =>
      obtain ⟨bound, isBound, rfl⟩ := Option.map_eq_some_iff.mp lowered
      have boundValue := checkedAdd_one isBound
      simp only [Nnf.holds, holds_ge, Comparison.apply, gt_iff_lt,
        UInt16.lt_iff_toNat_lt, decide_eq_decide]
      omega
  | lt =>
      obtain ⟨bound, isBound, rfl⟩ := Option.map_eq_some_iff.mp lowered
      have boundValue := checkedSub_one isBound
      simp only [Nnf.holds, holds_le, Comparison.apply, UInt16.lt_iff_toNat_lt, decide_eq_decide]
      omega
  | ne =>
      have unequal : Comparison.apply .ne (socket.portOf isSource) port =
          decide ((socket.portOf isSource).toNat ≠ port.toNat) := by
        rw [Bool.eq_iff_iff, Comparison.apply, bne_iff_ne,
          decide_eq_true_iff, ne_eq, ne_eq, UInt16.toNat_inj]
      rw [unequal]
      rw [lowerPortCmp] at lowered
      simp only at lowered
      split at lowered
      · rename_i lo hi isLo isHi
        have loValue := checkedSub_one isLo
        have hiValue := checkedAdd_one isHi
        cases lowered
        simp only [Nnf.holds, Nnf.anyHolds, holds_ge, holds_le, Bool.or_false]
        rw [Bool.eq_iff_iff, Bool.or_eq_true, decide_eq_true_iff,
          decide_eq_true_iff, decide_eq_true_iff]
        omega
      · rename_i hi isLo isHi
        have portValue := checkedSub_one_eq_none isLo
        have hiValue := checkedAdd_one isHi
        cases lowered
        simp only [Nnf.holds, holds_ge, decide_eq_decide]
        omega
      · rename_i lo isLo isHi
        have loValue := checkedSub_one isLo
        have portValue := checkedAdd_one_eq_none isHi
        cases lowered
        simp only [Nnf.holds, holds_le, decide_eq_decide]
        omega
      · cases lowered

theorem ofBytes_octets (addr : HostAddr) : ByteOrder.big.ofBytes addr.octets =
      match addr with
      | .v4 bits => bits.toNat
      | .v6 bits => bits.toNat := by
  cases addr with
  | v4 bits | v6 bits => exact ByteOrder.ofBytes_toBytes .big bits.isLt

theorem toNat_min (left right : UInt8) : (min left right).toNat = min left.toNat right.toNat := by
  change (if left ≤ right then left else right).toNat = _
  by_cases ordered : left ≤ right
  · rw [if_pos ordered, Nat.min_eq_left (UInt8.le_iff_toNat_le.mp ordered)]
  · rw [if_neg ordered, Nat.min_eq_right]
    have reversed := UInt8.not_le.mp ordered
    exact Nat.le_of_lt (UInt8.lt_iff_toNat_lt.mp reversed)

/-- The socket address that a host condition reads. -/
def InetSocket.ipOf (socket : InetSocket) (isSource : Bool) : IpAddr :=
  if isSource then socket.localAddr.ip else socket.remoteAddr.ip

theorem holds_host (socket : InetSocket) (isSource : Bool) (family prefixLen : UInt8)
    (addr : HostAddr) :
    Prim.holds socket.entry
        (.host (if isSource then INET_DIAG_BC_S_COND else INET_DIAG_BC_D_COND)
          family prefixLen addr) =
      hostCondMatches (socket.ipOf isSource) family prefixLen
        addr.octets := by
  cases isSource <;> rfl

theorem lowerHost_holds (socket : InetSocket) (isSource : Bool) (addr : IpAddr) (prefixLen : UInt8)
    (matched : ipMatches (socket.ipOf isSource) addr prefixLen = true) :
    (lowerHost isSource addr prefixLen).holds socket.entry = true := by
  cases addr with
  | v4 filter =>
      rw [lowerHost, holds_host]
      cases socketIp : socket.ipOf isSource with
      | v4 sock =>
          rw [socketIp] at matched
          have sameBits := masked_match_eq sock filter prefixLen.toNat
          rw [show (if prefixLen.toNat ≥ 32 then sock == filter else _) =
            ipMatches (.v4 sock) (.v4 filter) prefixLen from rfl, matched]
            at sameBits
          rw [hostCondMatches, ofBytes_octets, toNat_min]
          simpa using sameBits.symm
      | v6 sock =>
          rw [socketIp] at matched
          cases matched
  | v6 filter =>
      rw [lowerHost, holds_host]
      cases socketIp : socket.ipOf isSource with
      | v4 sock =>
          rw [socketIp] at matched
          cases matched
      | v6 sock =>
          rw [socketIp] at matched
          have sameBits := masked_match_eq sock filter prefixLen.toNat
          rw [show (if prefixLen.toNat ≥ 128 then sock == filter else _) =
            ipMatches (.v6 sock) (.v6 filter) prefixLen from rfl, matched]
            at sameBits
          rw [hostCondMatches, ofBytes_octets, toNat_min]
          simpa using sameBits.symm

/-- What a lowered form says of an expression's value on a socket. -/
structure Approximates (value : Bool) (nnf : Nnf) (entry : DiagEntry) : Prop where
  complete : value = true → nnf.holds entry = true
  sound : nnfIsExact nnf = true → nnf.holds entry = true → value = true

namespace Approximates

variable {entry : DiagEntry}

theorem ofEq {value : Bool} {nnf : Nnf} (same : nnf.holds entry = value) :
    Approximates value nnf entry where
  complete := fun isTrue => same.trans isTrue
  sound := fun _ isTrue => same.symm.trans isTrue

theorem ofHost {value : Bool} {isSource : Bool} {addr : IpAddr} {prefixLen : UInt8}
    (complete : value = true → (lowerHost isSource addr prefixLen).holds entry = true) :
    Approximates value (.leaf (lowerHost isSource addr prefixLen)) entry where
  complete := complete
  sound := by
    intro isExact
    cases addr <;> cases isExact

theorem and {leftValue rightValue : Bool} {left right : Nnf}
    (leftSide : Approximates leftValue left entry)
    (rightSide : Approximates rightValue right entry) :
    Approximates (leftValue && rightValue) (.and [left, right]) entry where
  complete := by
    intro both
    rw [Bool.and_eq_true] at both
    simp [Nnf.holds, Nnf.allHold, leftSide.complete both.1, rightSide.complete both.2]
  sound := by
    intro isExact holds
    simp only [nnfIsExact, allExact, Bool.and_true, Bool.and_eq_true] at isExact
    simp only [Nnf.holds, Nnf.allHold, Bool.and_true, Bool.and_eq_true] at holds
    rw [leftSide.sound isExact.1 holds.1, rightSide.sound isExact.2 holds.2]
    rfl

theorem or {leftValue rightValue : Bool} {left right : Nnf}
    (leftSide : Approximates leftValue left entry)
    (rightSide : Approximates rightValue right entry) :
    Approximates (leftValue || rightValue) (.or [left, right]) entry where
  complete := by
    intro either
    rcases Bool.or_eq_true_iff.mp either with isTrue | isTrue
    · simp [Nnf.holds, Nnf.anyHolds, leftSide.complete isTrue]
    · simp [Nnf.holds, Nnf.anyHolds, rightSide.complete isTrue]
  sound := by
    intro isExact holds
    simp only [nnfIsExact, allExact, Bool.and_true, Bool.and_eq_true] at isExact
    simp only [Nnf.holds, Nnf.anyHolds, Bool.or_false, Bool.or_eq_true] at holds
    rcases holds with holds | holds
    · rw [leftSide.sound isExact.1 holds, Bool.true_or]
    · rw [rightSide.sound isExact.2 holds, Bool.or_true]

end Approximates

variable {expr : FilterExpr}

theorem lower_approximates (socket : InetSocket) {negated : Bool}
    (lowered : lower expr negated = some nnf) :
    Approximates (expr.matches socket != negated) nnf socket.entry := by
  induction expr generalizing negated nnf with
  | sport comparison port | dport comparison port =>
      apply Approximates.ofEq
      rw [lowerPortCmp_holds socket lowered]
      cases negated with
      | true => simp [flip_apply, FilterExpr.matches, InetSocket.portOf]
      | false => simp [FilterExpr.matches, InetSocket.portOf]
  | src addr prefixLen =>
      cases negated with
      | true => cases lowered
      | false =>
          cases lowered
          apply Approximates.ofHost
          intro matched
          exact lowerHost_holds socket true addr prefixLen
            (by simpa [FilterExpr.matches, InetSocket.ipOf] using matched)
  | dst addr prefixLen =>
      cases negated with
      | true => cases lowered
      | false =>
          cases lowered
          apply Approximates.ofHost
          intro matched
          exact lowerHost_holds socket false addr prefixLen
            (by simpa [FilterExpr.matches, InetSocket.ipOf] using matched)
  | state wanted => cases lowered
  | and left right leftHypothesis rightHypothesis =>
      simp only [lower, Option.bind_eq_bind, Option.bind_eq_some_iff,
        Option.pure_def, Option.some.injEq] at lowered
      obtain ⟨leftNnf, leftLowered, rightNnf, rightLowered, rfl⟩ := lowered
      have leftSide := leftHypothesis leftLowered
      have rightSide := rightHypothesis rightLowered
      cases negated with
      | true => simpa [FilterExpr.matches] using leftSide.or rightSide
      | false => simpa [FilterExpr.matches] using leftSide.and rightSide
  | or left right leftHypothesis rightHypothesis =>
      simp only [lower, Option.bind_eq_bind, Option.bind_eq_some_iff,
        Option.pure_def, Option.some.injEq] at lowered
      obtain ⟨leftNnf, leftLowered, rightNnf, rightLowered, rfl⟩ := lowered
      have leftSide := leftHypothesis leftLowered
      have rightSide := rightHypothesis rightLowered
      cases negated with
      | true => simpa [FilterExpr.matches] using leftSide.and rightSide
      | false => simpa [FilterExpr.matches] using leftSide.or rightSide
  | not inner innerHypothesis =>
      have innerSide := innerHypothesis lowered
      cases negated <;> simpa [FilterExpr.matches] using innerSide

variable {socket : InetSocket} {state : TcpState}

/-- The mask of a state expression has the bit of a state exactly when the
expression matches a socket in it. -/
theorem evalStateMask_bit (isTcp : socket.state = .tcp state) (tcpStatesOnly : expr.TcpStatesOnly)
    {mask : BitVec 32} (evaluated : evalStateMask expr = some mask) :
    mask.getLsbD state.number = expr.matches socket := by
  induction expr generalizing mask with
  | state wanted =>
      cases wanted with
      | tcp wantedState =>
          cases evaluated
          rw [stateMask, TcpState.getLsbD_mask, FilterExpr.matches, isTcp, Bool.eq_iff_iff,
            decide_eq_true_iff, beq_iff_eq, SocketState.tcp.injEq]
      | close | established | listen => cases tcpStatesOnly
  | and left right leftHypothesis rightHypothesis =>
      simp only [evalStateMask, Option.bind_eq_bind,
        Option.bind_eq_some_iff, Option.pure_def, Option.some.injEq]
        at evaluated
      obtain ⟨leftMask, isLeft, rightMask, isRight, rfl⟩ := evaluated
      rw [BitVec.getLsbD_and, leftHypothesis tcpStatesOnly.1 isLeft,
        rightHypothesis tcpStatesOnly.2 isRight, FilterExpr.matches]
  | or left right leftHypothesis rightHypothesis =>
      simp only [evalStateMask, Option.bind_eq_bind,
        Option.bind_eq_some_iff, Option.pure_def, Option.some.injEq]
        at evaluated
      obtain ⟨leftMask, isLeft, rightMask, isRight, rfl⟩ := evaluated
      rw [BitVec.getLsbD_or, leftHypothesis tcpStatesOnly.1 isLeft,
        rightHypothesis tcpStatesOnly.2 isRight, FilterExpr.matches]
  | not inner innerHypothesis =>
      simp only [evalStateMask, Option.bind_eq_bind,
        Option.bind_eq_some_iff, Option.pure_def, Option.some.injEq]
        at evaluated
      obtain ⟨innerMask, isInner, rfl⟩ := evaluated
      have inWidth : state.number < 32 := by
        have small := state.number_lt
        omega
      rw [BitVec.getLsbD_and, TcpState.getLsbD_allMask, BitVec.getLsbD_not,
        innerHypothesis tcpStatesOnly isInner, FilterExpr.matches]
      simp [inWidth]
  | sport comparison port | dport comparison port | src addr prefixLen | dst addr prefixLen =>
      cases evaluated

theorem matches_conjuncts (socket : InetSocket) (expr : FilterExpr) :
    expr.matches socket =
      (conjuncts expr).all (fun conjunct => conjunct.matches socket) := by
  induction expr with
  | and left right leftHypothesis rightHypothesis =>
      rw [FilterExpr.matches, conjuncts, all_append, leftHypothesis, rightHypothesis]
  | _ => simp [conjuncts]

theorem conjuncts_tcpStatesOnly (tcpStatesOnly : expr.TcpStatesOnly) :
    ∀ conjunct ∈ conjuncts expr, conjunct.TcpStatesOnly := by
  induction expr with
  | and left right leftHypothesis rightHypothesis =>
      intro conjunct member
      rcases mem_append.mp member with inLeft | inRight
      · exact leftHypothesis tcpStatesOnly.1 conjunct inLeft
      · exact rightHypothesis tcpStatesOnly.2 conjunct inRight
  | _ =>
      intro conjunct member
      rw [mem_singleton.mp member]
      exact tcpStatesOnly

/-- Whether a state passes a mask; no mask passes every state. -/
def passesStates (states : Option (BitVec 32)) (state : TcpState) : Bool :=
  match states with
  | none => true
  | some mask => mask.getLsbD state.number

/-- What a split keeps about the conjuncts that it has seen. -/
structure Split.Represents (split : Split) (socket : InetSocket) (state : TcpState)
    (seen : List FilterExpr) :
    Prop where
  complete : (∀ conjunct ∈ seen, conjunct.matches socket = true) →
    passesStates split.states state = true
  parts : ∀ part ∈ split.bcParts, part ∈ seen
  sound : split.exact = true → passesStates split.states state = true →
    (∀ part ∈ split.bcParts, part.matches socket = true) →
    ∀ conjunct ∈ seen, conjunct.matches socket = true

/-- One more conjunct keeps what the split represents. -/
theorem Split.Represents.add {split : Split} {seen : List FilterExpr}
    (isTcp : socket.state = .tcp state) (represents : split.Represents socket state seen)
    {conjunct : FilterExpr} (tcpStatesOnly : conjunct.TcpStatesOnly) :
    (split.add conjunct).Represents socket state (seen ++ [conjunct]) := by
  have inWidth : state.number < 32 := by
    have small := state.number_lt
    omega
  cases evaluated : evalStateMask conjunct with
  | some mask =>
      have bit := evalStateMask_bit isTcp tcpStatesOnly evaluated
      have added : passesStates (split.add conjunct).states state =
          (passesStates split.states state && conjunct.matches socket) := by
        rw [Split.add, evaluated]
        cases states : split.states with
        | none =>
            have everyState : (BitVec.allOnes 32).getLsbD state.number = true := by
              rw [BitVec.getLsbD_allOnes, decide_eq_true inWidth]
            simp only [passesStates, Option.getD_none, BitVec.getLsbD_and, everyState, bit]
        | some others => simp [passesStates, bit]
      have sameParts : (split.add conjunct).bcParts = split.bcParts := by rw [Split.add, evaluated]
      have sameExact : (split.add conjunct).exact = split.exact := by rw [Split.add, evaluated]
      refine ⟨?_, ?_, ?_⟩
      · intro allMatch
        rw [added, represents.complete (fun other member => allMatch other (by simp [member])),
          allMatch conjunct (by simp)]
        rfl
      · intro part member
        rw [sameParts] at member
        exact mem_append_left _ (represents.parts part member)
      · intro isExact passes partsMatch other member
        rw [added, Bool.and_eq_true] at passes
        rw [sameExact] at isExact
        rw [sameParts] at partsMatch
        rcases mem_append.mp member with earlier | last
        · exact represents.sound isExact passes.1 partsMatch other earlier
        · rw [mem_singleton.mp last]
          exact passes.2
  | none =>
      cases hasState : containsState conjunct with
      | true =>
          have shape : split.add conjunct = { split with exact := false } := by
            rw [Split.add, evaluated]
            simp [hasState]
          rw [shape]
          refine ⟨?_, ?_, ?_⟩
          · intro allMatch
            exact represents.complete (fun other member => allMatch other (by simp [member]))
          · intro part member
            exact mem_append_left _ (represents.parts part member)
          · intro isExact
            cases isExact
      | false =>
          have shape : split.add conjunct =
              { split with bcParts := split.bcParts ++ [conjunct] } := by
            rw [Split.add, evaluated]
            simp [hasState]
          rw [shape]
          refine ⟨?_, ?_, ?_⟩
          · intro allMatch
            exact represents.complete (fun other member => allMatch other (by simp [member]))
          · intro part member
            rcases mem_append.mp member with earlier | last
            · exact mem_append_left _ (represents.parts part earlier)
            · exact mem_append_right _ last
          · intro isExact passes partsMatch other member
            rcases mem_append.mp member with earlier | last
            · exact represents.sound isExact passes
                (fun part inside => partsMatch part (by simp [inside]))
                other earlier
            · exact partsMatch other (mem_append_right _ last)

theorem Split.Represents.foldl {split : Split} {seen : List FilterExpr}
    (isTcp : socket.state = .tcp state) (represents : split.Represents socket state seen)
    (rest : List FilterExpr) (tcpStatesOnly : ∀ conjunct ∈ rest, conjunct.TcpStatesOnly) :
    (rest.foldl Split.add split).Represents socket state (seen ++ rest) := by
  induction rest generalizing split seen with
  | nil => simpa using represents
  | cons conjunct rest ih =>
      have next := represents.add isTcp (tcpStatesOnly conjunct (mem_cons_self ..))
      have done := ih next
        (fun other member => tcpStatesOnly other (mem_cons_of_mem conjunct member))
      simpa using done

theorem Split.of_represents (isTcp : socket.state = .tcp state)
    (tcpStatesOnly : expr.TcpStatesOnly) :
    (Split.of expr).Represents socket state (conjuncts expr) := by
  have start : Split.Represents { states := none, bcParts := [], exact := true } socket state [] :=
    ⟨fun _ => rfl, by simp, by simp⟩
  exact start.foldl isTcp (conjuncts expr) (conjuncts_tcpStatesOnly tcpStatesOnly)

theorem lowerParts_cons_none {part : FilterExpr} (rest : List FilterExpr)
    (lowered : lower part false = none) : lowerParts (part :: rest) = lowerParts rest :=
  filterMap_cons_none lowered

theorem lowerParts_cons_some {part : FilterExpr} (rest : List FilterExpr)
    (lowered : lower part false = some nnf) : lowerParts (part :: rest) = nnf :: lowerParts rest :=
  filterMap_cons_some lowered

theorem lowerParts_holds (socket : InetSocket) {parts : List FilterExpr}
    (partsMatch : ∀ part ∈ parts, part.matches socket = true) :
    Nnf.allHold socket.entry (lowerParts parts) = true := by
  induction parts with
  | nil => rfl
  | cons part rest ih =>
      have restHolds := ih (fun other member => partsMatch other (mem_cons_of_mem part member))
      cases lowered : lower part false with
      | none =>
          rw [lowerParts_cons_none rest lowered]
          exact restHolds
      | some nnf =>
          have partHolds := (lower_approximates socket lowered).complete
            (by simpa using partsMatch part (mem_cons_self ..))
          rw [lowerParts_cons_some rest lowered, Nnf.allHold, partHolds]
          exact restHolds

theorem lowerParts_sound (socket : InetSocket) {parts : List FilterExpr}
    (noneDropped : ∀ part ∈ parts, (lower part false).isSome = true)
    (isExact : allExact (lowerParts parts) = true)
    (holds : Nnf.allHold socket.entry (lowerParts parts) = true) :
    ∀ part ∈ parts, part.matches socket = true := by
  induction parts with
  | nil => simp
  | cons part rest ih =>
      obtain ⟨nnf, lowered⟩ := Option.isSome_iff_exists.mp (noneDropped part (mem_cons_self ..))
      rw [lowerParts_cons_some rest lowered] at isExact holds
      rw [allExact, Bool.and_eq_true] at isExact
      rw [Nnf.allHold, Bool.and_eq_true] at holds
      intro other member
      rcases mem_cons.mp member with rfl | inRest
      · simpa using (lower_approximates socket lowered).sound isExact.1 holds.1
      · exact ih (fun later inside => noneDropped later (mem_cons_of_mem part inside))
          isExact.2 holds.2 other inRest

/-- Whether the kernel passes a socket through a filter's program; no program
passes every socket. -/
def CompiledFilter.passesProgram (filter : CompiledFilter) (order : ByteOrder) (entry : DiagEntry) :
    Bool :=
  match filter.bytecode with
  | none => true
  | some bytes => bcRun order entry bytes.length bytes == some true

theorem compileFilter_run {order : ByteOrder} (entry : DiagEntry) {bytes : List UInt8}
    (compiled : (compileFilter order expr).bytecode = some bytes) {fuel : Nat}
    (enough : bytes.length ≤ fuel) :
    bcRun order entry fuel bytes = some (Nnf.allHold entry (lowerParts (Split.of expr).bcParts)) :=
  bcRun_assemble entry (lowerParts_valid _) (compileFilter_bytecode compiled) enough

theorem compileFilter_exact {order : ByteOrder}
    (isExact : (compileFilter order expr).exact = true) :
    (Split.of expr).exact = true ∧
      (∀ part ∈ (Split.of expr).bcParts, (lower part false).isSome = true) ∧
      allExact (lowerParts (Split.of expr).bcParts) = true ∧
      ((compileFilter order expr).bytecode = none → lowerParts (Split.of expr).bcParts = []) := by
  simp only [compileFilter] at isExact ⊢
  split at isExact
  · rename_i empty
    rw [if_pos empty]
    have noParts := List.isEmpty_iff.mp empty
    simp only [Bool.and_eq_true, all_eq_true] at isExact
    exact ⟨isExact.1, isExact.2, by rw [noParts]; rfl, fun _ => noParts⟩
  · rename_i nonempty
    rw [if_neg nonempty]
    simp only [Bool.and_eq_true, all_eq_true, nnfIsExact] at isExact
    obtain ⟨⟨⟨splitExact, noneDropped⟩, formsExact⟩, isSome⟩ := isExact
    refine ⟨splitExact, noneDropped, formsExact, ?_⟩
    intro noBytes
    simp only at noBytes
    rw [noBytes] at isSome
    cases isSome

theorem compileFilter_states (order : ByteOrder) (expr : FilterExpr) :
    (compileFilter order expr).states = (Split.of expr).states := by
  simp only [compileFilter]
  split <;> rfl

/-- Kernel-side filtering runs to completion, never loses a socket, and is
exact when it says so. -/
theorem compileFilter_correct (order : ByteOrder) (expr : FilterExpr) (socket : InetSocket)
    (state : TcpState) (tcpStatesOnly : expr.TcpStatesOnly) (isTcp : socket.state = .tcp state) :
    (∀ bytes, (compileFilter order expr).bytecode = some bytes →
        ∃ verdict, ∀ fuel, bytes.length ≤ fuel →
          bcRun order socket.entry fuel bytes = some verdict) ∧
      (expr.matches socket = true →
        (compileFilter order expr).passesProgram order socket.entry = true ∧
          passesStates (compileFilter order expr).states state = true) ∧
      ((compileFilter order expr).exact = true →
        passesStates (compileFilter order expr).states state = true →
        (compileFilter order expr).passesProgram order socket.entry = true →
        expr.matches socket = true) := by
  have represents := Split.of_represents isTcp tcpStatesOnly
  refine ⟨?_, ?_, ?_⟩
  · intro bytes compiled
    exact ⟨_, fun fuel enough => compileFilter_run socket.entry compiled enough⟩
  · intro matched
    rw [matches_conjuncts, all_eq_true] at matched
    constructor
    · rw [CompiledFilter.passesProgram]
      split
      · rfl
      · rename_i bytes compiled
        have holds := lowerParts_holds socket
          (fun part member => matched part (represents.parts part member))
        rw [compileFilter_run socket.entry compiled (Nat.le_refl _), holds]
        rfl
    · rw [compileFilter_states]
      exact represents.complete matched
  · intro isExact passes accepted
    obtain ⟨splitExact, noneDropped, formsExact, noProgram⟩ := compileFilter_exact isExact
    have holds : Nnf.allHold socket.entry (lowerParts (Split.of expr).bcParts) = true := by
      rw [CompiledFilter.passesProgram] at accepted
      split at accepted
      · rename_i noBytes
        rw [noProgram noBytes]
        rfl
      · rename_i bytes compiled
        rw [compileFilter_run socket.entry compiled (Nat.le_refl _)] at accepted
        simpa using accepted
    rw [compileFilter_states] at passes
    rw [matches_conjuncts, all_eq_true]
    exact represents.sound splitExact passes (lowerParts_sound socket noneDropped formsExact holds)

/-- The established sockets with source port 22 are filtered exactly. -/
theorem compileFilter_correct_ssh :
    (compileFilter .little (.and (.state (.tcp .established)) (.sport .eq 22))).exact = true ∧
      FilterExpr.matches
        { state := .tcp .established
          localAddr := { ip := .v4 0x0a000001#32, port := 22 }
          remoteAddr := { ip := .v4 0x0a000002#32, port := 4000 } }
        (.and (.state (.tcp .established)) (.sport .eq 22)) = true := by
  refine ⟨by decide, ?_⟩
  exact (compileFilter_correct .little (.and (.state (.tcp .established)) (.sport .eq 22))
    { state := .tcp .established
      localAddr := { ip := .v4 0x0a000001#32, port := 22 }
      remoteAddr := { ip := .v4 0x0a000002#32, port := 4000 } }
    .established ⟨trivial, trivial⟩ rfl).2.2
    (by decide) (by decide) (by decide)

theorem allHold_append (entry : DiagEntry) (first second : List Nnf) :
    Nnf.allHold entry (first ++ second) =
      (Nnf.allHold entry first && Nnf.allHold entry second) := by
  induction first with
  | nil => rfl
  | cons part rest ih => rw [cons_append, Nnf.allHold, Nnf.allHold, ih, Bool.and_assoc]

theorem portParts_holds (socket : InetSocket) {isSource : Bool} {port : Option UInt16}
    {parts : List Nnf} (built : portParts isSource port = some parts) :
    Nnf.allHold socket.entry parts = port.all (socket.portOf isSource == ·) := by
  cases port with
  | none =>
      cases built
      rfl
  | some port =>
      rw [portParts] at built
      obtain ⟨nnf, lowered, rfl⟩ := Option.map_eq_some_iff.mp built
      rw [Nnf.allHold, lowerPortCmp_holds socket lowered, Nnf.allHold, Bool.and_true]
      rfl

/-- The program that pins ports exists unless none is given, and the kernel
runs it to its end and accepts exactly the sockets with those ports. -/
theorem forPorts_exact (order : ByteOrder) (sport dport : Option UInt16) :
    ((forPorts order sport dport).isSome ↔ sport.isSome ∨ dport.isSome) ∧
      ∀ bytes, forPorts order sport dport = some bytes → ∀ socket : InetSocket,
        bcRun order socket.entry bytes.length bytes =
          some (sport.all (socket.localAddr.port == ·) &&
            dport.all (socket.remoteAddr.port == ·)) := by
  constructor
  · cases sport <;> cases dport <;> simp [forPorts, portParts, lowerPortCmp] <;> rfl
  · intro bytes compiled socket
    simp only [forPorts, Option.bind_eq_bind, Option.bind_eq_some_iff] at compiled
    obtain ⟨sourceParts, isSource, destinationParts, isDestination, built⟩ := compiled
    split at built
    · cases built
    · have valid : (Nnf.and (sourceParts ++ destinationParts)).Valid := by
        refine .and fun part member => ?_
        rcases mem_append.mp member with fromSource | fromDestination
        · exact portParts_valid isSource part fromSource
        · exact portParts_valid isDestination part fromDestination
      rw [bcRun_assemble socket.entry valid built (Nat.le_refl _), Nnf.holds, allHold_append,
        portParts_holds socket isSource, portParts_holds socket isDestination]
      rfl

end Nlink.Sockdiag
