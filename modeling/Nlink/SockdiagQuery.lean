import Nlink.SockdiagBytecodeCorrect

namespace Nlink.Sockdiag

open Foundation (ByteOrder)

/-!
# Queries of inet sockets

The kernel passes over the sockets that its part of a filter excludes; what it
could not exclude is filtered by the client.
-/

/-- A socket of a dump, with the fields that filters read. -/
structure DumpedSocket where
  state : TcpState
  localAddr : SocketAddr
  remoteAddr : SocketAddr
  interface : BitVec 32
  mark : Option (BitVec 32) := none
  cgroupId : Option (BitVec 64) := none
  deriving DecidableEq

def DumpedSocket.socket (dumped : DumpedSocket) : InetSocket :=
  { state := .tcp dumped.state, localAddr := dumped.localAddr, remoteAddr := dumped.remoteAddr }

/-- What a query asks for; by default it asks for every socket. -/
structure InetFilter where
  states : BitVec 32 := TcpState.allMask
  localAddr : Option IpAddr := none
  localPort : Option UInt16 := none
  remoteAddr : Option IpAddr := none
  remotePort : Option UInt16 := none
  interface : Option (BitVec 32) := none
  mark : Option (BitVec 32 × BitVec 32) := none
  cgroupId : Option (BitVec 64) := none
  expr : Option FilterExpr := none

/-- The prefix length that only one address has. -/
def fullPrefix : IpAddr → UInt8
  | .v4 _ => 32
  | .v6 _ => 128

/-- One more conjunct, if it is given. -/
def conjoin (expr leaf : Option FilterExpr) : Option FilterExpr :=
  match expr, leaf with
  | some expr, some leaf => some (.and expr leaf)
  | expr, leaf => expr.or leaf

namespace InetFilter

variable (order : ByteOrder) (filter : InetFilter)

def effectiveExpr : Option FilterExpr :=
  [filter.localPort.map (.sport .eq), filter.remotePort.map (.dport .eq),
    filter.localAddr.map fun addr => .src addr (fullPrefix addr),
    filter.remoteAddr.map fun addr => .dst addr (fullPrefix addr)].foldl conjoin filter.expr

def compiled : CompiledFilter :=
  (filter.effectiveExpr.map (compileFilter order)).getD
    { states := none, bytecode := none, exact := false }

/-- `matches_scalar_filters`. -/
def matchesScalars (dumped : DumpedSocket) : Bool :=
  filter.interface.all (· == dumped.interface) &&
    filter.mark.all (fun (value, mask) => dumped.mark.any (· &&& mask == value &&& mask)) &&
    filter.cgroupId.all (dumped.cgroupId == some ·)

/-- The sockets that the kernel dumps for the request. -/
def kernelDump (table : List DumpedSocket) : List DumpedSocket :=
  let compiled := filter.compiled order
  let states := filter.states &&& compiled.states.getD (BitVec.allOnes 32)
  table.filter fun dumped =>
    states.getLsbD dumped.state.number && compiled.passesProgram order dumped.socket.entry

def queryInetFamily (table : List DumpedSocket) : List DumpedSocket :=
  let backstop := if (filter.compiled order).exact then none else filter.effectiveExpr
  (filter.kernelDump order table).filter fun dumped =>
    backstop.all (·.matches dumped.socket) && filter.matchesScalars dumped

/-- Whether a socket is one that the filter describes. -/
def describes (dumped : DumpedSocket) : Bool :=
  filter.states.getLsbD dumped.state.number && (filter.expr.all (·.matches dumped.socket) &&
    filter.localPort.all (dumped.localAddr.port == ·) &&
    filter.remotePort.all (dumped.remoteAddr.port == ·) &&
    filter.localAddr.all (dumped.localAddr.ip == ·) &&
    filter.remoteAddr.all (dumped.remoteAddr.ip == ·)) && filter.matchesScalars dumped

end InetFilter

theorem ipMatches_fullPrefix (ip addr : IpAddr) :
    ipMatches ip addr (fullPrefix addr) = (ip == addr) := by
  cases ip <;> cases addr <;> simp [ipMatches, fullPrefix]

theorem conjoin_all (socket : InetSocket) (expr leaf : Option FilterExpr) :
    (conjoin expr leaf).all (·.matches socket) =
      (expr.all (·.matches socket) && leaf.all (·.matches socket)) := by
  cases expr <;> cases leaf <;> simp [conjoin, FilterExpr.matches]

theorem conjoin_tcpStatesOnly {expr leaf : Option FilterExpr}
    (first : ∀ part ∈ expr, part.TcpStatesOnly) (second : ∀ part ∈ leaf, part.TcpStatesOnly) :
    ∀ part ∈ conjoin expr leaf, part.TcpStatesOnly := by
  cases expr <;> cases leaf <;> simp_all [conjoin, FilterExpr.TcpStatesOnly]

/-- What the kernel passes is what matches, once the client has looked at it
where the kernel's part is not exact. -/
theorem compileFilter_keeps (order : ByteOrder) {expr : FilterExpr} {socket : InetSocket}
    {state : TcpState} (tcpStatesOnly : expr.TcpStatesOnly) (isTcp : socket.state = .tcp state) :
    (passesStates (compileFilter order expr).states state &&
        (compileFilter order expr).passesProgram order socket.entry &&
        ((compileFilter order expr).exact || expr.matches socket)) = expr.matches socket := by
  have represents := Split.of_represents isTcp tcpStatesOnly
  have conjuncts := matches_conjuncts socket expr
  cases matched : expr.matches socket with
  | true =>
      rw [matched, eq_comm, List.all_eq_true] at conjuncts
      have states := represents.complete conjuncts
      rw [compileFilter_states, states, Bool.or_true, Bool.true_and, Bool.and_true,
        CompiledFilter.passesProgram]
      split
      · rfl
      · rename_i bytes compiled
        rw [compileFilter_run socket.entry compiled (Nat.le_refl _), lowerParts_holds socket
          fun part member => conjuncts part (represents.parts part member)]
        rfl
  | false =>
      rw [Bool.or_false, ← Bool.not_eq_true, Bool.and_eq_true, Bool.and_eq_true]
      rintro ⟨⟨passes, accepted⟩, isExact⟩
      obtain ⟨splitExact, noneDropped, formsExact, noProgram⟩ := compileFilter_exact isExact
      have holds : Nnf.allHold socket.entry (lowerParts (Split.of expr).bcParts) = true := by
        rw [CompiledFilter.passesProgram] at accepted
        split at accepted
        · rename_i noBytes
          rw [noProgram noBytes]
          rfl
        · rename_i bytes compiled
          rw [compileFilter_run socket.entry compiled (Nat.le_refl _)] at accepted
          simpa using accepted
      rw [compileFilter_states] at passes
      rw [matched, eq_comm, ← Bool.not_eq_true, List.all_eq_true] at conjuncts
      exact conjuncts
        (represents.sound splitExact passes (lowerParts_sound socket noneDropped formsExact holds))

/-- A query returns exactly the sockets that its filter describes, in the order
of the dump, however much of the filter the kernel could run. -/
theorem InetFilter.queryInetFamily_exact (order : ByteOrder) (filter : InetFilter)
    (tcpStatesOnly : ∀ expr ∈ filter.expr, expr.TcpStatesOnly) (table : List DumpedSocket) :
    filter.queryInetFamily order table = table.filter filter.describes := by
  have effective (dumped : DumpedSocket) :
      filter.effectiveExpr.all (·.matches dumped.socket) =
        (filter.expr.all (·.matches dumped.socket) &&
          filter.localPort.all (dumped.localAddr.port == ·) &&
          filter.remotePort.all (dumped.remoteAddr.port == ·) &&
          filter.localAddr.all (dumped.localAddr.ip == ·) &&
          filter.remoteAddr.all (dumped.remoteAddr.ip == ·)) := by
    simp only [effectiveExpr, List.foldl_cons, List.foldl_nil, conjoin_all, Option.all_map]
    simp only [FilterExpr.matches, ipMatches_fullPrefix, Comparison.apply, DumpedSocket.socket]
  have states : ∀ expr ∈ filter.effectiveExpr, expr.TcpStatesOnly := by
    simp only [effectiveExpr, List.foldl_cons, List.foldl_nil]
    refine conjoin_tcpStatesOnly (conjoin_tcpStatesOnly (conjoin_tcpStatesOnly
      (conjoin_tcpStatesOnly tcpStatesOnly ?_) ?_) ?_) ?_
    all_goals simp [FilterExpr.TcpStatesOnly]
  rw [queryInetFamily, kernelDump, List.filter_filter]
  refine List.filter_congr fun dumped _ => ?_
  have hoisted (mask : Option (BitVec 32)) :
      (mask.getD (BitVec.allOnes 32)).getLsbD dumped.state.number =
        passesStates mask dumped.state := by
    have small := dumped.state.number_lt
    cases mask with
    | none =>
        rw [Option.getD_none, BitVec.getLsbD_allOnes, passesStates, decide_eq_true_eq]
        omega
    | some mask => rfl
  rw [describes, ← effective, compiled, BitVec.getLsbD_and, hoisted]
  cases isExpr : filter.effectiveExpr with
  | none => grind [CompiledFilter.passesProgram, passesStates]
  | some expr =>
      have keeps : _ = expr.matches dumped.socket :=
        compileFilter_keeps order (states expr isExpr)
          (rfl : dumped.socket.state = .tcp dumped.state)
      grind

/-- On port 22: the listeners, and the sockets of 10.0.0.0/8. -/
theorem InetFilter.queryInetFamily_exact_port :
    let filter : InetFilter :=
      { localPort := some 22, expr := some (.or (.state (.tcp .listen)) (.src (.v4 0x0a000000) 8)) }
    let socket (state : TcpState) (port : UInt16) : DumpedSocket :=
      ⟨state, ⟨.v4 0x0a000001, port⟩, ⟨.v4 0, 0⟩, 0, none, none⟩
    filter.queryInetFamily .little [socket .listen 80, socket .close 22] = [socket .close 22] :=
  (InetFilter.queryInetFamily_exact .little _ (by simp [FilterExpr.TcpStatesOnly]) _).trans
    (by decide)

end Nlink.Sockdiag
