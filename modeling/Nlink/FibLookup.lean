import Nlink.Foundation.Frames
import Nlink.NetlinkReply
import Nlink.NetlinkRoute

namespace Nlink.FibLookup

open Foundation Netlink List

/-!
# Lookups in the forwarding table

A lookup sends one structure and gets it back filled in.  The address in it is a
number that the code builds from the four octets in network order and then writes
in the order of the host; the kernel reads its four bytes as the address.
-/

def NLMSG_ERROR : Nat := 2

/-- What is sent to the kernel for a lookup, and what comes back. -/
structure FibResultNl where
  flAddr : BitVec 32
  flFwmark : BitVec 32
  flTos : BitVec 8
  flScope : BitVec 8
  tbIdIn : BitVec 8
  tbId : BitVec 8
  prefixlen : BitVec 8
  nhSel : BitVec 8
  routeType : BitVec 8
  scope : BitVec 8
  err : BitVec 32
  deriving Inhabited

namespace FibResultNl

/-- The structure in the memory of a host. -/
def layout (order : ByteOrder) : FixedLayout FibResultNl :=
  let u32 := FixedLayout.number order 4
  let u8 := FixedLayout.number order 1
  (u32.pair (u32.pair (u8.pair (u8.pair (u8.pair (u8.pair (u8.pair (u8.pair (u8.pair
    (u8.pair u32)))))))))).via
    (fun (addr, mark, tos, scopeIn, tableIn, table, len, nhSel, type, scope, err) =>
      ⟨addr, mark, tos, scopeIn, tableIn, table, len, nhSel, type, scope, err⟩)
    (fun frn => (frn.flAddr, frn.flFwmark, frn.flTos, frn.flScope, frn.tbIdIn, frn.tbId,
      frn.prefixlen, frn.nhSel, frn.routeType, frn.scope, frn.err))
    fun _ => rfl

/-- The structure with every field zero. -/
def zero : FibResultNl :=
  ⟨0, 0, 0, 0, 0, 0, 0, 0, 0, 0, 0⟩

/-- `u32::from_be_bytes` of the octets. -/
def numberOfAddr (addr : Ipv4Addr) : BitVec 32 :=
  BitVec.ofNat 32 (ByteOrder.big.ofBytes addr.octets)

def forAddr (addr : Ipv4Addr) : FibResultNl :=
  { zero with flAddr := numberOfAddr addr }

def forAddrInTable (addr : Ipv4Addr) (table : BitVec 8) : FibResultNl :=
  { zero with flAddr := numberOfAddr addr, tbIdIn := table }

def forAddrWithMark (addr : Ipv4Addr) (mark : BitVec 32) : FibResultNl :=
  { zero with flAddr := numberOfAddr addr, flFwmark := mark }

/-- The looked up address, from the bytes of `to_be_bytes`. -/
def addr (frn : FibResultNl) : Ipv4Addr :=
  Ipv4Addr.fromOctets (ByteOrder.big.toBytes 4 frn.flAddr.toNat)

end FibResultNl

/-- Route type from a lookup. -/
inductive RouteType where
  | unspec
  | local
  | unicast
  | broadcast
  | anycast
  | multicast
  | blackhole
  | unreachable
  | prohibit
  | throw
  | nat
  | xResolve
  | unknown (type : BitVec 8)
  deriving DecidableEq

namespace RouteType

def fromU8 : BitVec 8 → RouteType
  | 0 => .unspec
  | 1 => .unicast
  | 2 => .local
  | 3 => .broadcast
  | 4 => .anycast
  | 5 => .multicast
  | 6 => .blackhole
  | 7 => .unreachable
  | 8 => .prohibit
  | 9 => .throw
  | 10 => .nat
  | 11 => .xResolve
  | other => .unknown other

def number : RouteType → BitVec 8
  | .unspec => 0
  | .unicast => 1
  | .local => 2
  | .broadcast => 3
  | .anycast => 4
  | .multicast => 5
  | .blackhole => 6
  | .unreachable => 7
  | .prohibit => 8
  | .throw => 9
  | .nat => 10
  | .xResolve => 11
  | .unknown type => type

theorem number_fromU8 (type : BitVec 8) : (fromU8 type).number = type := by
  unfold fromU8
  split <;> rfl

end RouteType

/-- Route scope from a lookup. -/
inductive RouteScope where
  | universe
  | site
  | link
  | host
  | nowhere
  | unknown (scope : BitVec 8)
  deriving DecidableEq

namespace RouteScope

def fromU8 : BitVec 8 → RouteScope
  | 0 => .universe
  | 200 => .site
  | 253 => .link
  | 254 => .host
  | 255 => .nowhere
  | other => .unknown other

def number : RouteScope → BitVec 8
  | .universe => 0
  | .site => 200
  | .link => 253
  | .host => 254
  | .nowhere => 255
  | .unknown scope => scope

theorem number_fromU8 (scope : BitVec 8) : (fromU8 scope).number = scope := by
  unfold fromU8
  split <;> rfl

end RouteScope

/-- Result of a lookup. -/
structure FibLookupResult where
  addr : Ipv4Addr
  tableId : BitVec 8
  prefixLen : BitVec 8
  routeType : RouteType
  scope : RouteScope
  nhSel : BitVec 8
  error : BitVec 32
  deriving DecidableEq

def FibLookupResult.ofReply (result : FibResultNl) : FibLookupResult where
  addr := result.addr
  tableId := result.tbId
  prefixLen := result.prefixlen
  routeType := .fromU8 result.routeType
  scope := .fromU8 result.scope
  nhSel := result.nhSel
  error := result.err

/-- What a lookup ends with; it may panic, or wait for another datagram. -/
inductive Outcome where
  | waiting
  | failed (error : Error)
  | found (result : FibLookupResult)
  | panicked
  deriving DecidableEq

section Client

variable (order : ByteOrder)

/-- The number at a range of a datagram; a range out of bounds panics. -/
def numberAt? (data : List UInt8) (first last : Nat) : Option Nat :=
  ((Slice.whole data).sub? first last).map fun slice => order.ofBytes (slice.bytes data)

/-- `from_errno` of a negated code; the least number has no negation. -/
def fromNegatedErrno? (errno : BitVec 32) : Option Error :=
  if errno = BitVec.intMin 32 then none else some (.kernel errno.toInt.natAbs none none)

def requestBytes (seq pid : BitVec 32) (request : FibResultNl) : List UInt8 :=
  let header : NlMsgHdr := {
    nlmsgLen := 0
    nlmsgType := 0
    nlmsgFlags := NLM_F_REQUEST
    nlmsgSeq := seq.toNat
    nlmsgPid := pid.toNat }
  let buf := header.asBytes order ++ (FibResultNl.layout order).write request
  -- The length in front is filled in last.
  order.toBytes 4 buf.length ++ buf.drop 4

/-- What a datagram with an own sequence number is returned as. -/
def ownReply (data : List UInt8) : Outcome :=
  match numberAt? order data 4 6 with
  | none => .panicked
  | some nlmsgType =>
      if nlmsgType = NLMSG_ERROR ∧ 20 ≤ data.length then
        match numberAt? order data 16 20 with
        | none => .panicked
        | some errno =>
            if errno ≠ 0 then
              match fromNegatedErrno? (BitVec.ofNat 32 errno) with
              | none => .panicked
              | some error => .failed error
            else
              foundIn data
      else
        foundIn data
where
  /-- The structure behind the header. -/
  foundIn (data : List UInt8) : Outcome :=
    if data.length < NLMSG_HDRLEN + (FibResultNl.layout order).size then
      .failed (.invalidMessage "response too short for FIB result")
    else
      match (Slice.whole data).sub? NLMSG_HDRLEN data.length with
      | none => .panicked
      | some slice =>
          match (FibResultNl.layout order).fromPrefix? (slice.bytes data) with
          | none => .failed (.invalidMessage "failed to parse FIB result")
          | some result => .found (.ofReply result)

/-- The receive loop of `lookup_with_options`. -/
def receiveLoop (seq : BitVec 32) : List (List UInt8) → Outcome
  | [] => .waiting
  | data :: later =>
      if data.length < NLMSG_HDRLEN then
        .failed (.invalidMessage "response too short")
      else
        match numberAt? order data 8 12 with
        | none => .panicked
        | some respSeq => if respSeq ≠ seq.toNat then receiveLoop seq later else ownReply order data

end Client

/-! ## The kernel -/

/-- What the kernel fills into a reply. -/
structure FibAnswer where
  tbId : BitVec 8
  prefixlen : BitVec 8
  nhSel : BitVec 8
  routeType : BitVec 8
  scope : BitVec 8
  err : BitVec 32
  deriving DecidableEq

/-- The routing tables: what is found for an address in a table. -/
abbrev Fib := BitVec 8 → Ipv4Addr → FibAnswer

def RT_TABLE_MAIN : BitVec 8 := 254

/-- The answer in the table that is asked for; table 0 is the main one. -/
def Fib.find (fib : Fib) (tbIdIn : BitVec 8) (addr : Ipv4Addr) : FibAnswer :=
  fib (if tbIdIn = 0 then RT_TABLE_MAIN else tbIdIn) addr

def FibResultNl.filled (frn : FibResultNl) (answer : FibAnswer) : FibResultNl :=
  { frn with
    tbId := answer.tbId
    prefixlen := answer.prefixlen
    nhSel := answer.nhSel
    routeType := answer.routeType
    scope := answer.scope
    err := answer.err }

/-- The kernel's copy of a request; the address is the first four bytes as they lie. -/
def kernelReply (order : ByteOrder) (fib : Fib) (request : List UInt8) : List UInt8 :=
  let payload := request.drop NLMSG_HDRLEN
  let frn := (FibResultNl.layout order).read payload
  request.take NLMSG_HDRLEN ++ (FibResultNl.layout order).write
    (frn.filled (fib.find frn.tbIdIn (Ipv4Addr.fromOctets (payload.take 4))))

section Lookup

variable (order : ByteOrder) (fib : Fib) (seq pid : BitVec 32) (stale : List (List UInt8))

/-- `lookup_with_options`, where some datagrams lie in front of the reply. -/
def lookupWithOptions (request : FibResultNl) : Outcome :=
  receiveLoop order seq (stale ++ [kernelReply order fib (requestBytes order seq pid request)])

def lookup (addr : Ipv4Addr) : Outcome :=
  lookupWithOptions order fib seq pid stale (.forAddr addr)

def lookupInTable (addr : Ipv4Addr) (table : BitVec 8) : Outcome :=
  lookupWithOptions order fib seq pid stale (.forAddrInTable addr table)

def lookupWithMark (addr : Ipv4Addr) (mark : BitVec 32) : Outcome :=
  lookupWithOptions order fib seq pid stale (.forAddrWithMark addr mark)

end Lookup

/-!
## Lookups answer for the address where the host is big-endian

The octets of the address are swapped on their way to the kernel by a host that is
little-endian, and the reply swaps them back: what is found is the route of the
swapped address, under the address that was asked for.
-/

section Receive

variable {order : ByteOrder} {seq : BitVec 32} {data : List UInt8}

/-- The sequence number of a datagram. -/
def seqOf (order : ByteOrder) (data : List UInt8) : Nat :=
  order.ofBytes ((data.drop 8).take 4)

/-- A datagram of another request. -/
def Stale (order : ByteOrder) (seq : BitVec 32) (data : List UInt8) : Prop :=
  NLMSG_HDRLEN ≤ data.length ∧ seqOf order data ≠ seq.toNat

/-- An error message with the code that has no negation. -/
def IsLeastError (order : ByteOrder) (data : List UInt8) : Prop :=
  order.ofBytes ((data.drop 4).take 2) = NLMSG_ERROR ∧ 20 ≤ data.length ∧
    BitVec.ofNat 32 (order.ofBytes ((data.drop 16).take 4)) = BitVec.intMin 32

theorem numberAt?_eq {first last : Nat} (inside : first ≤ last ∧ last ≤ data.length) :
    numberAt? order data first last =
      some (order.ofBytes ((data.drop first).take (last - first))) := by
  rw [numberAt?, Slice.sub?_eq_some inside, Option.map_some]
  simp [Slice.bytes, Slice.whole]

theorem foundIn_eq (data : List UInt8) : ownReply.foundIn order data =
    if data.length < 36 then .failed (.invalidMessage "response too short for FIB result")
    else .found (.ofReply ((FibResultNl.layout order).read (data.drop 16))) := by
  rw [ownReply.foundIn, show NLMSG_HDRLEN + (FibResultNl.layout order).size = 36 from rfl]
  split_ifs with short
  · rfl
  · have behind : ((data.drop 16).take (data.length - 16)) = data.drop 16 :=
      take_of_length_le (by rw [length_drop])
    have long : ¬ (data.drop 16).length < (FibResultNl.layout order).size := by
      rw [length_drop, show (FibResultNl.layout order).size = 20 from rfl]
      omega
    have inside : NLMSG_HDRLEN ≤ data.length ∧ data.length ≤ (Slice.whole data).len :=
      ⟨Nat.le_trans (by decide) (Nat.le_of_not_lt short), Nat.le_refl _⟩
    rw [Slice.sub?_eq_some inside]
    simp only [Slice.bytes, Slice.whole, NLMSG_HDRLEN, Nat.zero_add, behind,
      FixedLayout.fromPrefix?, if_neg long]

/-- Only an error with the least code makes the code panic. -/
theorem ownReply_panicked_iff (long : NLMSG_HDRLEN ≤ data.length) :
    ownReply order data = .panicked ↔ IsLeastError order data := by
  have headed : 6 ≤ data.length := Nat.le_trans (by decide) long
  rw [ownReply, numberAt?_eq ⟨by decide, headed⟩, IsLeastError]
  have found : ownReply.foundIn order data ≠ .panicked := by
    rw [foundIn_eq]
    split_ifs <;> exact Outcome.noConfusion
  by_cases isError : order.ofBytes ((data.drop 4).take 2) = NLMSG_ERROR ∧ 20 ≤ data.length
  · have least : BitVec.ofNat 32 0 ≠ BitVec.intMin 32 := by decide
    have code := @numberAt?_eq order data 16 20 ⟨by decide, isError.2⟩
    simp only [Nat.reduceSub] at code
    simp only [Nat.reduceSub, if_pos isError, code, fromNegatedErrno?]
    split_ifs with nonzero isLeast
    · exact iff_of_true rfl ⟨isError.1, isError.2, isLeast⟩
    · exact iff_of_false (by rintro ⟨⟩) fun all => isLeast all.2.2
    · rw [ne_eq, not_not] at nonzero
      rw [nonzero]
      exact iff_of_false found fun all => least all.2.2
  · simp only [Nat.reduceSub, if_neg isError]
    exact iff_of_false found fun all => isError ⟨all.1, all.2.1⟩

theorem receiveLoop_cons (long : NLMSG_HDRLEN ≤ data.length) (later : List (List UInt8)) :
    receiveLoop order seq (data :: later) =
      if seqOf order data ≠ seq.toNat then receiveLoop order seq later
      else ownReply order data := by
  have headed : 12 ≤ data.length := Nat.le_trans (by decide) long
  rw [receiveLoop, if_neg (Nat.not_lt.mpr long), numberAt?_eq ⟨by decide, headed⟩]
  rfl

/-- Datagrams of other requests are passed over. -/
theorem receiveLoop_stale {stale : List (List UInt8)} (others : ∀ data ∈ stale, Stale order seq data)
    (later : List (List UInt8)) :
    receiveLoop order seq (stale ++ later) = receiveLoop order seq later := by
  induction stale with
  | nil => rfl
  | cons data stale ih =>
      obtain ⟨first, rest⟩ := forall_mem_cons.mp others
      rw [cons_append, receiveLoop_cons first.1, if_pos first.2, ih rest]

/-- The first datagram with the own sequence number is an error with the least code. -/
def MeetsLeastError (order : ByteOrder) (seq : BitVec 32) (frames : List (List UInt8)) : Prop :=
  ∃ before data behind, frames = before ++ data :: behind ∧
    (∀ other ∈ before, Stale order seq other) ∧ seqOf order data = seq.toNat ∧
    NLMSG_HDRLEN ≤ data.length ∧ IsLeastError order data

theorem receiveLoop_panicked_iff (frames : List (List UInt8)) :
    receiveLoop order seq frames = .panicked ↔ MeetsLeastError order seq frames := by
  induction frames with
  | nil => exact iff_of_false Outcome.noConfusion (by rintro ⟨_ | _, _, _, ⟨⟩, _⟩)
  | cons data later ih =>
      by_cases long : NLMSG_HDRLEN ≤ data.length
      · rw [receiveLoop_cons long]
        split_ifs with other
        · rw [ih]
          constructor
          · rintro ⟨before, found, behind, rfl, stale, parts⟩
            exact ⟨data :: before, found, behind, rfl,
              forall_mem_cons.mpr ⟨⟨long, other⟩, stale⟩, parts⟩
          · rintro ⟨_ | ⟨_, before⟩, found, behind, same, stale, own, parts⟩
            · cases same
              exact absurd own other
            · cases same
              exact ⟨before, found, behind, rfl, (forall_mem_cons.mp stale).2, own, parts⟩
        · rw [ne_eq, not_not] at other
          rw [ownReply_panicked_iff long]
          constructor
          · intro least
            exact ⟨[], data, later, rfl, forall_mem_nil _, other, long, least⟩
          · rintro ⟨_ | ⟨_, before⟩, found, behind, same, stale, own, parts⟩
            · cases same
              exact parts.2
            · cases same
              exact absurd other (forall_mem_cons.mp stale).1.2
      · rw [receiveLoop, if_pos (Nat.lt_of_not_le long)]
        refine iff_of_false Outcome.noConfusion ?_
        rintro ⟨_ | ⟨_, before⟩, found, behind, same, stale, own, parts⟩
        · cases same
          exact long parts.1
        · cases same
          exact long (forall_mem_cons.mp stale).1.1

end Receive

section Reply

variable {order : ByteOrder} {fib : Fib} {seq pid : BitVec 32}

def sentHeader (seq pid : BitVec 32) : NlMsgHdr where
  nlmsgLen := 36
  nlmsgType := 0
  nlmsgFlags := NLM_F_REQUEST
  nlmsgSeq := seq.toNat
  nlmsgPid := pid.toNat

theorem requestBytes_eq (request : FibResultNl) : requestBytes order seq pid request =
    (sentHeader seq pid).asBytes order ++ (FibResultNl.layout order).write request := by
  have size : ((FibResultNl.layout order).write request).length = 20 :=
    (FibResultNl.layout order).length_write request
  simp only [requestBytes, length_append, asBytes_length, size]
  simp [NlMsgHdr.asBytes, sentHeader, List.append_assoc, drop_left']

/-- The address that the kernel reads. -/
def heard (order : ByteOrder) (addr : Ipv4Addr) : Ipv4Addr :=
  Ipv4Addr.fromOctets (order.toBytes 4 addr.toNat)

theorem heard_big (addr : Ipv4Addr) : heard .big addr = addr :=
  Ipv4Addr.fromOctets_octets addr

/-- The kernel's reply to a request for an address. -/
theorem kernelReply_eq (request : FibResultNl) :
    kernelReply order fib (requestBytes order seq pid request) =
      (sentHeader seq pid).asBytes order ++ (FibResultNl.layout order).write
        (request.filled (fib.find request.tbIdIn (heard order request.flAddr))) := by
  have payload : ((sentHeader seq pid).asBytes order ++
      (FibResultNl.layout order).write request).drop 16 =
        (FibResultNl.layout order).write request :=
    drop_left' (asBytes_length order (sentHeader seq pid))
  have header : ((sentHeader seq pid).asBytes order ++
      (FibResultNl.layout order).write request).take 16 = (sentHeader seq pid).asBytes order :=
    take_left' (asBytes_length order (sentHeader seq pid))
  have frn := (FibResultNl.layout order).read_write request []
  rw [List.append_nil] at frn
  have addr : ((FibResultNl.layout order).write request).take 4 =
      order.toBytes 4 request.flAddr.toNat :=
    take_left' (order.toBytes_length 4 request.flAddr.toNat)
  rw [kernelReply, requestBytes_eq, NLMSG_HDRLEN]
  simp only [payload, header, frn, addr, heard]

theorem ownReply_written (frn : FibResultNl) :
    let reply := (sentHeader seq pid).asBytes order ++ (FibResultNl.layout order).write frn
    NLMSG_HDRLEN ≤ reply.length ∧ seqOf order reply = seq.toNat ∧
      ownReply order reply = .found (.ofReply frn) := by
  intro reply
  have size : ((FibResultNl.layout order).write frn).length = 20 :=
    (FibResultNl.layout order).length_write frn
  have long : reply.length = 36 := by simp only [reply, length_append, asBytes_length, size]
  have seqFits : seq.toNat < 256 ^ 4 := seq.isLt
  have isSeq : seqOf order reply = seq.toNat := by
    simp [seqOf, reply, NlMsgHdr.asBytes, sentHeader, drop_append, drop_of_length_le,
      order.ofBytes_toBytes seqFits]
  have isType : order.ofBytes ((reply.drop 4).take 2) = 0 := by
    have zero := order.ofBytes_toBytes (show 0 < 256 ^ 2 by decide)
    simp [reply, NlMsgHdr.asBytes, sentHeader, zero]
  have payload : reply.drop 16 = (FibResultNl.layout order).write frn :=
    drop_left' (asBytes_length order (sentHeader seq pid))
  have read := (FibResultNl.layout order).read_write frn []
  rw [List.append_nil] at read
  have type := @numberAt?_eq order reply 4 6 ⟨by decide, by omega⟩
  refine ⟨by rw [long]; decide, isSeq, ?_⟩
  rw [ownReply, type, show 6 - 4 = 2 from rfl, isType]
  change ownReply.foundIn order reply = _
  rw [foundIn_eq, if_neg (by omega), payload, read]

def FibLookupResult.ofAnswer (addr : Ipv4Addr) (answer : FibAnswer) : FibLookupResult where
  addr := addr
  tableId := answer.tbId
  prefixLen := answer.prefixlen
  routeType := .fromU8 answer.routeType
  scope := .fromU8 answer.scope
  nhSel := answer.nhSel
  error := answer.err

theorem ofAnswer_inj {addr : Ipv4Addr} {first second : FibAnswer} :
    FibLookupResult.ofAnswer addr first = .ofAnswer addr second ↔ first = second := by
  constructor
  · intro same
    have type := congrArg (fun result => result.routeType.number) same
    have scope := congrArg (fun result => result.scope.number) same
    simp only [FibLookupResult.ofAnswer, RouteType.number_fromU8] at type
    simp only [FibLookupResult.ofAnswer, RouteScope.number_fromU8] at scope
    simp only [FibLookupResult.ofAnswer, FibLookupResult.mk.injEq] at same
    obtain ⟨-, table, len, -, -, nhSel, error⟩ := same
    cases first
    cases second
    simp only [FibAnswer.mk.injEq]
    exact ⟨table, len, nhSel, type, scope, error⟩
  · intro same
    rw [same]

/-- A lookup finds the answer for the address that the kernel reads. -/
theorem lookupWithOptions_eq {stale : List (List UInt8)}
    (others : ∀ data ∈ stale, Stale order seq data) {request : FibResultNl} {addr : Ipv4Addr}
    (isAddr : request.flAddr = FibResultNl.numberOfAddr addr) :
    lookupWithOptions order fib seq pid stale request =
      .found (.ofAnswer addr (fib.find request.tbIdIn (heard order addr))) := by
  have number : FibResultNl.numberOfAddr addr = addr := Ipv4Addr.fromOctets_octets addr
  rw [number] at isAddr
  have own := @ownReply_written order seq pid
    (request.filled (fib.find request.tbIdIn (heard order addr)))
  rw [lookupWithOptions, receiveLoop_stale others, kernelReply_eq, isAddr,
    receiveLoop_cons own.1, if_neg (not_not_intro own.2.1), own.2.2]
  have back : Ipv4Addr.fromOctets (ByteOrder.big.toBytes 4 addr.toNat) = addr :=
    Ipv4Addr.fromOctets_octets addr
  simp [FibLookupResult.ofReply, FibLookupResult.ofAnswer, FibResultNl.filled, FibResultNl.addr,
    isAddr, back]

end Reply

/--
The three lookups return what the kernel finds for the address, whatever datagrams
of other requests lie in front of the reply.
-/
structure Answers (order : ByteOrder) (fib : Fib) (seq pid : BitVec 32) (addr : Ipv4Addr)
    (table : BitVec 8) (mark : BitVec 32) : Prop where
  inMain : ∀ stale : List (List UInt8), (∀ data ∈ stale, Stale order seq data) →
    lookup order fib seq pid stale addr = .found (.ofAnswer addr (fib.find 0 addr))
  inTable : ∀ stale : List (List UInt8), (∀ data ∈ stale, Stale order seq data) →
    lookupInTable order fib seq pid stale addr table = .found (.ofAnswer addr (fib.find table addr))
  withMark : ∀ stale : List (List UInt8), (∀ data ∈ stale, Stale order seq data) →
    lookupWithMark order fib seq pid stale addr mark = .found (.ofAnswer addr (fib.find 0 addr))

theorem answers_iff {order : ByteOrder} {fib : Fib} {seq pid : BitVec 32} {addr : Ipv4Addr}
    {table : BitVec 8} {mark : BitVec 32} : Answers order fib seq pid addr table mark ↔
      order = .big ∨ fib.find 0 (heard .little addr) = fib.find 0 addr ∧
        fib.find table (heard .little addr) = fib.find table addr := by
  have found : ∀ (stale : List (List UInt8)), (∀ data ∈ stale, Stale order seq data) →
      ∀ (request : FibResultNl), request.flAddr = FibResultNl.numberOfAddr addr →
      (lookupWithOptions order fib seq pid stale request =
          .found (.ofAnswer addr (fib.find request.tbIdIn addr)) ↔
        fib.find request.tbIdIn (heard order addr) = fib.find request.tbIdIn addr) := by
    intro stale others request isAddr
    rw [lookupWithOptions_eq others isAddr, Outcome.found.injEq, ofAnswer_inj]
  cases order with
  | big =>
      refine iff_of_true ⟨fun stale others => ?_, fun stale others => ?_, fun stale others => ?_⟩
        (.inl rfl)
      all_goals exact (found stale others _ rfl).mpr (by rw [heard_big])
  | little =>
      constructor
      · intro answers
        exact .inr ⟨(found [] (forall_mem_nil _) (.forAddr addr) rfl).mp
            (answers.inMain [] (forall_mem_nil _)),
          (found [] (forall_mem_nil _) (.forAddrInTable addr table) rfl).mp
            (answers.inTable [] (forall_mem_nil _))⟩
      · intro same
        obtain ⟨sameMain, sameTable⟩ := same.resolve_left (by decide)
        exact ⟨fun stale others => (found stale others (.forAddr addr) rfl).mpr sameMain,
          fun stale others => (found stale others (.forAddrInTable addr table) rfl).mpr sameTable,
          fun stale others => (found stale others (.forAddrWithMark addr mark) rfl).mpr sameMain⟩

/--
Lookups answer for their address, and the loop does not panic on what it receives,
exactly if the host is big-endian or the tables have the same answers for the
address with its bytes swapped, and no error with the least code is received.
-/
theorem lookups_sound_iff {order : ByteOrder} {fib : Fib} {seq pid : BitVec 32} {addr : Ipv4Addr}
    {table : BitVec 8} {mark : BitVec 32} {frames : List (List UInt8)} :
    Answers order fib seq pid addr table mark ∧ receiveLoop order seq frames ≠ .panicked ↔
      (order = .big ∨ fib.find 0 (heard .little addr) = fib.find 0 addr ∧
        fib.find table (heard .little addr) = fib.find table addr) ∧
      ¬ MeetsLeastError order seq frames :=
  and_congr answers_iff (receiveLoop_panicked_iff frames).not

/-- A default route, and a route for the loopback network. -/
def loopback : Fib := fun _ addr =>
  if addr.octets.head? = some 127 then ⟨254, 8, 0, 2, 254, 0⟩ else ⟨254, 0, 0, 1, 0, 0⟩

/-- On a little-endian host the loopback address is looked up as 1.0.0.127. -/
theorem not_answers_loopback :
    lookup .little loopback 1 7 [] 0x7f000001 =
        .found (.ofAnswer 0x7f000001 (loopback.find 0 0x0100007f)) ∧
      ¬ Answers .little loopback 1 7 0x7f000001 0 0 := by
  refine ⟨by decide +kernel, fun answers => ?_⟩
  exact absurd (answers_iff.mp answers) (by decide +kernel)

end Nlink.FibLookup
