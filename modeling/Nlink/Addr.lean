import Nlink.Foundation.EraseFirst
import Nlink.NetlinkRoute

namespace Nlink.Addr

open Foundation Netlink List

/-!
# Deleting addresses

A deletion names the interface, the prefix length and the local address.  A
flush deletes all addresses that a dump gives for an interface, and stops at
the first error that does not say that something was not found.
-/

def AF_INET : UInt8 := 2
def AF_INET6 : UInt8 := 10

inductive IpAddr where
  | v4 (addr : Ipv4Addr)
  | v6 (addr : Ipv6Addr)
  deriving DecidableEq

namespace IpAddr

/-- `Ipv4Addr::LOCALHOST`. -/
def V4_LOCALHOST : IpAddr := .v4 0x7F000001

/-- `Ipv6Addr::LOCALHOST`. -/
def V6_LOCALHOST : IpAddr := .v6 1

end IpAddr

/-- `IfAddrMsg`. -/
structure IfAddrMsg where
  ifaFamily : UInt8
  ifaPrefixlen : UInt8
  ifaFlags : UInt8
  ifaScope : UInt8
  ifaIndex : BitVec 32

namespace IfAddrMsg

def SIZE : Nat := 8

/-- `IfAddrMsg::new`. -/
def new : IfAddrMsg :=
  { ifaFamily := 0, ifaPrefixlen := 0, ifaFlags := 0, ifaScope := 0,
    ifaIndex := 0 }

def asBytes (order : ByteOrder) (msg : IfAddrMsg) : List UInt8 :=
  [msg.ifaFamily, msg.ifaPrefixlen, msg.ifaFlags, msg.ifaScope] ++
    order.toBytes 4 msg.ifaIndex.toNat

/-- Read a header off the front of the bytes. -/
def fromBytes (order : ByteOrder) : List UInt8 → Option IfAddrMsg
  | family :: prefixlen :: flags :: scope :: i0 :: i1 :: i2 :: i3 :: _ =>
      some
        { ifaFamily := family, ifaPrefixlen := prefixlen, ifaFlags := flags,
          ifaScope := scope, ifaIndex := readU32 order [i0, i1, i2, i3] }
  | _ => none

theorem asBytes_length (order : ByteOrder) (msg : IfAddrMsg) :
    (msg.asBytes order).length = SIZE := by
  rw [asBytes, length_append, ByteOrder.toBytes_length]
  rfl

theorem fromBytes_asBytes (order : ByteOrder) (msg : IfAddrMsg) (rest : List UInt8) :
    fromBytes order (msg.asBytes order ++ rest) = some msg := by
  have index := readU32_toBytes order msg.ifaIndex
  obtain ⟨i0, i1, i2, i3, bytes⟩ := length_eq_four.mp (order.toBytes_length 4 msg.ifaIndex.toNat)
  rw [bytes] at index
  rw [asBytes, bytes]
  exact congrArg (fun index => some { msg with ifaIndex := index }) index

end IfAddrMsg

namespace IfaAttr

def Address : Nat := 1
def Local : Nat := 2
def Label : Nat := 3

end IfaAttr

section Delete

variable (order : ByteOrder)

/-- `write_delete`, of either family: the header and the local address. -/
def writeDelete (family : UInt8) (octets : List UInt8) (prefixLen : UInt8)
    (ifindex : BitVec 32) (msg : MessageBuilder) : MessageBuilder :=
  let ifaddr : IfAddrMsg :=
    { IfAddrMsg.new with
      ifaFamily := family
      ifaPrefixlen := prefixLen
      ifaIndex := ifindex }
  (msg.appendBytes (ifaddr.asBytes order)).appendAttr order IfaAttr.Local octets

/-- `Ipv4Address::write_delete`. -/
def Ipv4Address.writeDelete (addr : Ipv4Addr) (prefixLen : UInt8) (ifindex : BitVec 32) :
    MessageBuilder → MessageBuilder :=
  Addr.writeDelete order AF_INET (Ipv4Addr.octets addr) prefixLen ifindex

/-- `Ipv6Address::write_delete`. -/
def Ipv6Address.writeDelete (addr : Ipv6Addr) (prefixLen : UInt8) (ifindex : BitVec 32) :
    MessageBuilder → MessageBuilder :=
  Addr.writeDelete order AF_INET6 (Ipv6Addr.octets addr) prefixLen ifindex

def RTM_DELADDR : Nat := 21

def deleteMessage (address : IpAddr) (prefixLen : UInt8) (ifindex : BitVec 32) : MessageBuilder :=
  let msg := MessageBuilder.new order RTM_DELADDR (NLM_F_REQUEST ||| NLM_F_ACK)
  match address with
  | .v4 addr => Ipv4Address.writeDelete order addr prefixLen ifindex msg
  | .v6 addr => Ipv6Address.writeDelete order addr prefixLen ifindex msg

end Delete

/-- `AddressMessage`, as far as a flush reads it. -/
structure AddressMessage where
  ifindex : BitVec 32
  prefixLen : UInt8
  address : Option IpAddr

def EADDRNOTAVAIL : Nat := 99

/-- `Error::is_not_found`, of the errors that a request can have. -/
def isNotFound : Error → Bool
  | .kernel errno _ _ => errno == ENOENT || errno == ENODEV
  | _ => false

/-- Whether a flush skips an address. -/
def isSkipped (ifindex : BitVec 32) (address : IpAddr) : Bool :=
  ifindex == 1 && (address == IpAddr.V4_LOCALHOST || address == IpAddr.V6_LOCALHOST)

/-!
## Addresses in the kernel

The kernel holds the addresses of interfaces in a list.  It deletes the first
address that a request describes; with a primary IPv4 address its secondaries
go as well.  For IPv4 the prefix length is compared only if the request has a
peer address.
-/

/-- The local address and the peer's, which is the local one again if there is
no peer. -/
inductive AddressPair where
  | v4 (loc address : Ipv4Addr)
  | v6 (loc address : Ipv6Addr)
  deriving DecidableEq

/-- An address as the kernel holds it. -/
structure KernelAddress where
  ifindex : BitVec 32
  pair : AddressPair
  prefixLen : UInt8
  label : List UInt8
  secondary : Bool
  deriving DecidableEq

/-- The network bits of an IPv4 prefix. -/
def subnetMask (prefixLen : UInt8) : Ipv4Addr :=
  BitVec.allOnes 32 <<< (32 - prefixLen.toNat)

/-- Whether two addresses are in one IPv4 subnet. -/
def sameSubnet (prefixLen : UInt8) (first second : Ipv4Addr) : Bool :=
  (first ^^^ second) &&& subnetMask prefixLen == 0

namespace KernelAddress

def loc (entry : KernelAddress) : IpAddr :=
  match entry.pair with
  | .v4 loc _ => .v4 loc
  | .v6 loc _ => .v6 loc

def address (entry : KernelAddress) : IpAddr :=
  match entry.pair with
  | .v4 _ address => .v4 address
  | .v6 _ address => .v6 address

def message (entry : KernelAddress) : AddressMessage where
  ifindex := entry.ifindex
  prefixLen := entry.prefixLen
  address := some entry.address

/-- Whether another address is a secondary of a primary one. -/
def takesAlong (entry other : KernelAddress) : Bool :=
  match entry.pair, other.pair with
  | .v4 _ address, .v4 _ otherAddress =>
      !entry.secondary && other.secondary && other.ifindex == entry.ifindex &&
        other.prefixLen == entry.prefixLen &&
        sameSubnet entry.prefixLen address otherAddress
  | _, _ => false

end KernelAddress

/-- What a deletion asks for. -/
structure Criteria where
  family : UInt8
  prefixLen : UInt8
  ifindex : BitVec 32
  loc : Option (List UInt8)
  address : Option (List UInt8)
  label : Option (List UInt8)

namespace Criteria

/-- What a request's body asks for. -/
def decode (order : ByteOrder) (body : List UInt8) : Option Criteria :=
  (IfAddrMsg.fromBytes order body).map fun msg =>
    let attrs := attrIter order (body.drop IfAddrMsg.SIZE)
    { family := msg.ifaFamily
      prefixLen := msg.ifaPrefixlen
      ifindex := msg.ifaIndex
      loc := lastOf attrs IfaAttr.Local
      address := lastOf attrs IfaAttr.Address
      label := (lastOf attrs IfaAttr.Label).map (List.takeWhile (· ≠ 0)) }

def holds (asked : Option (List UInt8)) (test : List UInt8 → Bool) : Bool :=
  match asked with
  | some value => test value
  | none => true

/-- The address is one that the deletion asks for. -/
def accepts (criteria : Criteria) (entry : KernelAddress) : Bool :=
  entry.ifindex == criteria.ifindex &&
    match entry.pair with
    | .v4 loc address =>
        criteria.family == AF_INET &&
          holds criteria.loc (fun value => Ipv4Addr.fromOctets value == loc) &&
          holds criteria.label (fun value => value == entry.label) &&
          holds criteria.address fun value =>
            entry.prefixLen == criteria.prefixLen &&
              sameSubnet entry.prefixLen (Ipv4Addr.fromOctets value) address
    | .v6 loc _ =>
        criteria.family == AF_INET6 && entry.prefixLen == criteria.prefixLen &&
          match criteria.loc.or criteria.address with
          | some value => Ipv6Addr.fromOctets value == loc
          | none => false

end Criteria

/-- The kernel's addresses and its answer after a request. -/
abbrev Answer := List KernelAddress × Except Error Unit

/-- The kernel refuses a request. -/
def refuse (entries : List KernelAddress) (errno : Nat) : Answer :=
  (entries, .error (.kernel errno none none))

/-- The kernel's answer to a deletion. -/
def kernelDelAddr (order : ByteOrder) (entries : List KernelAddress) (body : List UInt8) :
    Answer :=
  match Criteria.decode order body with
  | none => refuse entries EINVAL
  | some criteria =>
      match entries.find? criteria.accepts with
      | some entry =>
          ((entries.eraseP criteria.accepts).filter fun other => !entry.takesAlong other, .ok ())
      | none => refuse entries EADDRNOTAVAIL

namespace Connection

variable (order : ByteOrder)

/-- `del_address_by_index`. -/
def delAddressByIndex (entries : List KernelAddress) (ifindex : BitVec 32) (address : IpAddr)
    (prefixLen : UInt8) : Answer :=
  kernelDelAddr order entries
    ((deleteMessage order address prefixLen ifindex).buf.drop NLMSG_HDRLEN)

/-- `get_addresses_by_index`. -/
def getAddressesByIndex (entries : List KernelAddress) (ifindex : BitVec 32) :
    List AddressMessage :=
  (entries.map KernelAddress.message).filter fun message => message.ifindex == ifindex

/-- The loop of `flush_addresses_by_index`. -/
def flushLoop (ifindex : BitVec 32) : List AddressMessage → List KernelAddress → Answer
  | [], entries => (entries, .ok ())
  | message :: rest, entries =>
      match message.address with
      | none => flushLoop ifindex rest entries
      | some address =>
          if isSkipped ifindex address then
            flushLoop ifindex rest entries
          else
            match delAddressByIndex order entries ifindex address
                message.prefixLen with
            | (left, .ok ()) => flushLoop ifindex rest left
            | (left, .error error) =>
                -- Only what is not found is passed over.
                if isNotFound error then flushLoop ifindex rest left else (left, .error error)

/-- `flush_addresses_by_index`. -/
def flushAddressesByIndex (entries : List KernelAddress) (ifindex : BitVec 32) : Answer :=
  flushLoop order ifindex (getAddressesByIndex entries ifindex) entries

end Connection

/-!
## Which addresses are removed

A deletion finds the first IPv4 address that is equal, whatever its prefix
length.  A flush asks for the peers' addresses, and fails when one of them is
no local address, or is gone already because its primary address is.
-/

variable (order : ByteOrder)

/-- What a deletion looks for: the interface, the address and, for IPv6, the
prefix length. -/
abbrev Key := BitVec 32 × IpAddr × Option UInt8

def askedKey (ifindex : BitVec 32) (address : IpAddr) (prefixLen : UInt8) :
    Key :=
  match address with
  | .v4 addr => (ifindex, .v4 addr, none)
  | .v6 addr => (ifindex, .v6 addr, some prefixLen)

theorem askedKey_parts (ifindex : BitVec 32) (address : IpAddr) (prefixLen : UInt8) :
    (askedKey ifindex address prefixLen).1 = ifindex ∧
      (askedKey ifindex address prefixLen).2.1 = address := by
  cases address <;> exact ⟨rfl, rfl⟩

/-- Under what an address is found. -/
def keyOf (entry : KernelAddress) : Key :=
  askedKey entry.ifindex entry.loc entry.prefixLen

/-- The address's bytes and family. -/
def octetsOf : IpAddr → List UInt8
  | .v4 addr => Ipv4Addr.octets addr
  | .v6 addr => Ipv6Addr.octets addr

def familyOf : IpAddr → UInt8
  | .v4 _ => AF_INET
  | .v6 _ => AF_INET6

def asked (address : IpAddr) (prefixLen : UInt8) (ifindex : BitVec 32) : Criteria where
  family := familyOf address
  prefixLen := prefixLen
  ifindex := ifindex
  loc := some (octetsOf address)
  address := none
  label := none

theorem decode_deleteMessage (address : IpAddr) (prefixLen : UInt8) (ifindex : BitVec 32) :
    Criteria.decode order ((deleteMessage order address prefixLen ifindex).buf.drop NLMSG_HDRLEN) =
      some (asked address prefixLen ifindex) := by
  let ifaddr : IfAddrMsg :=
    { IfAddrMsg.new with
      ifaFamily := familyOf address
      ifaPrefixlen := prefixLen
      ifaIndex := ifindex }
  have header : Appends (fun msg => msg.appendBytes (ifaddr.asBytes order)) _ :=
    appends_header (by rw [IfAddrMsg.asBytes_length]; decide)
  have whole := header.comp (appends_one order IfaAttr.Local (octetsOf address))
  have start :
      (MessageBuilder.new order RTM_DELADDR
        (NLM_F_REQUEST ||| NLM_F_ACK)).buf.length = NLMSG_HDRLEN := by
    simp [MessageBuilder.new, NlMsgHdr.asBytes, NLMSG_HDRLEN]
  have written := whole.appended (.new order RTM_DELADDR (NLM_F_REQUEST ||| NLM_F_ACK))
    (by rw [start]; decide)
  have isMessage : deleteMessage order address prefixLen ifindex =
        ((MessageBuilder.new order RTM_DELADDR (NLM_F_REQUEST ||| NLM_F_ACK)).appendBytes
            (ifaddr.asBytes order)).appendAttr order IfaAttr.Local
          (octetsOf address) := by
    cases address <;> rfl
  have plain : ∀ attr ∈ [((IfaAttr.Local, octetsOf address) : Attribute)],
      attr.1 < NLA_F_NET_BYTEORDER :=
    forall_mem_singleton.mpr (show IfaAttr.Local < _ by decide)
  have short : ∀ attr ∈ [((IfaAttr.Local, octetsOf address) : Attribute)],
      NLA_HDRLEN + attr.2.length ≤ 65535 := by
    refine forall_mem_singleton.mpr ?_
    cases address <;> simp [octetsOf, NLA_HDRLEN]
  rw [isMessage, written, drop_left' start, Criteria.decode, IfAddrMsg.fromBytes_asBytes,
    drop_left' (IfAddrMsg.asBytes_length ..), attrIter_encodeAll_plain order plain short]
  rfl

theorem accepts_asked (address : IpAddr) (prefixLen : UInt8) (ifindex : BitVec 32) :
    (asked address prefixLen ifindex).accepts =
      hasKey keyOf (askedKey ifindex address prefixLen) := by
  funext entry
  obtain ⟨index, pair, len, label, secondary⟩ := entry
  rw [Bool.eq_iff_iff]
  cases address with
  | v4 addr =>
      cases pair with
      | v4 loc peer =>
          simp [Criteria.accepts, asked, Criteria.holds, familyOf, octetsOf,
            hasKey, keyOf, askedKey, KernelAddress.loc]
          exact fun _ => eq_comm
      | v6 loc peer =>
          simp [Criteria.accepts, asked, familyOf, hasKey, keyOf, askedKey,
            KernelAddress.loc, AF_INET, AF_INET6]
  | v6 addr =>
      cases pair with
      | v4 loc peer =>
          simp [Criteria.accepts, asked, familyOf, hasKey, keyOf, askedKey,
            KernelAddress.loc, AF_INET, AF_INET6]
      | v6 loc peer =>
          simp [Criteria.accepts, asked, familyOf, octetsOf, hasKey, keyOf,
            askedKey, KernelAddress.loc]
          exact fun _ => and_comm.trans (and_congr_left' eq_comm)

theorem delAddressByIndex_eq (entries : List KernelAddress) (ifindex : BitVec 32) (address : IpAddr)
    (prefixLen : UInt8) :
    Connection.delAddressByIndex order entries ifindex address prefixLen =
      match eraseAlong keyOf KernelAddress.takesAlong
          (askedKey ifindex address prefixLen) entries with
      | some left => (left, .ok ())
      | none => refuse entries EADDRNOTAVAIL := by
  rw [Connection.delAddressByIndex, kernelDelAddr, decode_deleteMessage]
  dsimp only
  rw [accepts_asked, eraseAlong]
  cases entries.find? (hasKey keyOf (askedKey ifindex address prefixLen)) <;>
    rfl

/-!
## One address
-/

/-- The address is configured on the interface with the prefix length. -/
def IsConfigured (ifindex : BitVec 32) (address : IpAddr) (prefixLen : UInt8)
    (entry : KernelAddress) : Prop :=
  entry.ifindex = ifindex ∧ entry.loc = address ∧ entry.prefixLen = prefixLen

/-- The address that is configured is removed, with its secondaries; else
nothing is changed, and the deletion fails. -/
def RemovedOnly (ifindex : BitVec 32) (address : IpAddr) (prefixLen : UInt8)
    (entries : List KernelAddress) (answer : Answer) : Prop :=
  (answer.2 = .ok () ↔ ∃ entry ∈ entries, IsConfigured ifindex address prefixLen entry) ∧
    (answer.2 = .ok () → ∃ before entry after, entries = before ++ entry :: after ∧
        IsConfigured ifindex address prefixLen entry ∧
        answer.1 = (before ++ after).filter fun other => !entry.takesAlong other) ∧
    (answer.2 ≠ .ok () → answer.1 = entries)

/-- For IPv4, the first address that is equal has the prefix length. -/
def FirstHasPrefix (ifindex : BitVec 32) (address : IpAddr) (prefixLen : UInt8)
    (entries : List KernelAddress) : Prop :=
  match address with
  | .v4 addr =>
      ∀ entry,
        entries.find? (fun entry =>
            entry.ifindex == ifindex && entry.loc == .v4 addr) = some entry →
          entry.prefixLen = prefixLen
  | .v6 _ => True

theorem hasKey_v4 (ifindex : BitVec 32) (addr : Ipv4Addr) (prefixLen : UInt8) :
    hasKey keyOf (askedKey ifindex (.v4 addr) prefixLen) = fun entry =>
      entry.ifindex == ifindex && entry.loc == .v4 addr := by
  funext entry
  rw [Bool.eq_iff_iff]
  obtain ⟨index, pair, len, label, secondary⟩ := entry
  cases pair <;> simp [hasKey, keyOf, askedKey, KernelAddress.loc]

variable {ifindex : BitVec 32} {entry : KernelAddress}

theorem hasKey_of_isConfigured {address : IpAddr} {prefixLen : UInt8}
    (configured : IsConfigured ifindex address prefixLen entry) :
    hasKey keyOf (askedKey ifindex address prefixLen) entry = true := by
  obtain ⟨isIndex, isAddress, isPrefix⟩ := configured
  rw [hasKey, keyOf, isIndex, isAddress, isPrefix]
  exact beq_self_eq_true _

theorem isConfigured_of_hasKey {address : IpAddr} {prefixLen : UInt8}
    (found : hasKey keyOf (askedKey ifindex address prefixLen) entry = true)
    (samePrefix : ∀ addr, address = .v4 addr → entry.prefixLen = prefixLen) :
    IsConfigured ifindex address prefixLen entry := by
  have sameKey := beq_iff_eq.mp found
  obtain ⟨index, pair, len, label, secondary⟩ := entry
  cases address with
  | v4 addr =>
      have isPrefix := samePrefix addr rfl
      cases pair <;> cases sameKey
      exact ⟨rfl, rfl, isPrefix⟩
  | v6 addr =>
      cases pair <;> cases sameKey
      exact ⟨rfl, rfl, rfl⟩

/-- A deletion removes the address as asked exactly if, for IPv4, the first
address that is equal has the prefix length. -/
theorem delAddressByIndex_removedOnly_iff (entries : List KernelAddress) (ifindex : BitVec 32)
    (address : IpAddr) (prefixLen : UInt8) :
    RemovedOnly ifindex address prefixLen entries
        (Connection.delAddressByIndex order entries ifindex address prefixLen) ↔
      FirstHasPrefix ifindex address prefixLen entries := by
  rw [delAddressByIndex_eq, eraseAlong]
  cases found : entries.find?
      (hasKey keyOf (askedKey ifindex address prefixLen)) with
  | none =>
      have absent : ¬ ∃ entry ∈ entries, IsConfigured ifindex address prefixLen entry := by
        rintro ⟨entry, member, configured⟩
        exact find?_eq_none.mp found entry member (hasKey_of_isConfigured configured)
      refine iff_of_true ⟨iff_of_false (by rintro ⟨⟩) absent, by rintro ⟨⟩, fun _ => rfl⟩ ?_
      cases address with
      | v4 addr =>
          intro entry isFirst
          rw [← hasKey_v4 ifindex addr prefixLen, found] at isFirst
          cases isFirst
      | v6 addr => trivial
  | some entry =>
      obtain ⟨hasKey, before, after, split, earlier⟩ := find?_eq_some_iff_append.mp found
      have left : entries.eraseP (Foundation.hasKey keyOf (askedKey ifindex address prefixLen)) =
            before ++ after := by
        rw [split, eraseP_append_right _ fun other member => by simpa using earlier other member,
          eraseP_cons_of_pos hasKey]
      have first : FirstHasPrefix ifindex address prefixLen entries ↔
          ∀ addr, address = .v4 addr → entry.prefixLen = prefixLen := by
        cases address with
        | v4 addr =>
            rw [FirstHasPrefix, ← hasKey_v4 ifindex addr prefixLen, found]
            exact ⟨fun all _ _ => all entry rfl, fun all other same => by
              cases same
              exact all addr rfl⟩
        | v6 addr => exact iff_of_true trivial fun _ same => by cases same
      rw [first]
      constructor
      · rintro ⟨isOk, removed, _⟩ addr isV4
        by_contra otherPrefix
        obtain ⟨before', asked, after', split', configured, isLeft⟩ := removed rfl
        have different : asked ≠ entry := by
          rintro rfl
          exact otherPrefix configured.2.2
        have stays : entry.takesAlong asked = false := by
          have notSame : (asked.prefixLen == entry.prefixLen) = false := by
            rw [beq_eq_false_iff_ne, configured.2.2]
            exact fun same => otherPrefix same.symm
          rw [KernelAddress.takesAlong]
          split
          · rw [notSame, Bool.and_false, Bool.false_and]
          · rfl
        have inLeft :
            ((before ++ after).filter fun other => !entry.takesAlong other).count asked =
                entries.count asked := by
          rw [count_filter (by rw [stays]; rfl), split, count_append,
            count_append, count_cons_of_ne different.symm]
        change ((entries.eraseP _).filter _) = _ at isLeft
        rw [left] at isLeft
        rw [isLeft, split', count_append, count_cons_self] at inLeft
        have fewer := (filter_sublist (p := fun other => !asked.takesAlong other)
          (l := before' ++ after')).count_le asked
        rw [count_append] at fewer
        omega
      · intro samePrefix
        have configured := isConfigured_of_hasKey hasKey samePrefix
        have member : entry ∈ entries := by
          rw [split]
          exact mem_append_right _ (mem_cons_self ..)
        refine ⟨iff_of_true rfl ⟨entry, member, configured⟩, fun _ =>
          ⟨before, entry, after, split, configured, ?_⟩,
          fun fails => absurd rfl fails⟩
        rw [← left]
        rfl

/-!
## A flush
-/

/-- The address may be left on the interface. -/
def mayStay (ifindex : BitVec 32) (entry : KernelAddress) : Bool :=
  isSkipped ifindex entry.loc

def toRemove (ifindex : BitVec 32) (entry : KernelAddress) : Bool :=
  entry.ifindex == ifindex && !mayStay ifindex entry

/-- The keys that a flush asks for: of the peer's address of each address that
it does not skip. -/
def flushKeys (ifindex : BitVec 32) (entries : List KernelAddress) : List Key :=
  (entries.filter fun entry => entry.ifindex == ifindex && !isSkipped ifindex entry.address).map
    fun entry => askedKey ifindex entry.address entry.prefixLen

/-- A flush succeeds, and leaves only what may stay. -/
def Flushed (ifindex : BitVec 32) (answer : Answer) : Prop :=
  answer.2 = .ok () ∧ ∀ entry ∈ answer.1, entry.ifindex = ifindex → mayStay ifindex entry = true

/-- The key that a message of the dump makes the flush ask for. -/
def messageKey (ifindex : BitVec 32) (message : AddressMessage) : Option Key :=
  message.address.bind fun address =>
    if isSkipped ifindex address then none else some (askedKey ifindex address message.prefixLen)

theorem flushLoop_eq_ok_iff {messages : List AddressMessage} {entries left : List KernelAddress} :
    Connection.flushLoop order ifindex messages entries = (left, .ok ()) ↔
      eraseAllAlong keyOf KernelAddress.takesAlong
        (messages.filterMap (messageKey ifindex)) entries = some left := by
  induction messages generalizing entries with
  | nil =>
      change (entries, Except.ok ()) = (left, .ok ()) ↔ some entries = some left
      simp
  | cons message rest ih =>
      rw [Connection.flushLoop]
      cases isAddress : message.address with
      | none =>
          have noKey : messageKey ifindex message = none := by
            rw [messageKey, isAddress]
            rfl
          rw [filterMap_cons_none noKey]
          exact ih
      | some address =>
          dsimp only
          cases skipped : isSkipped ifindex address with
          | true =>
              have noKey : messageKey ifindex message = none := by
                rw [messageKey, isAddress]
                exact if_pos skipped
              rw [filterMap_cons_none noKey]
              exact ih
          | false =>
              have isKey : messageKey ifindex message =
                  some (askedKey ifindex address message.prefixLen) := by
                rw [messageKey, isAddress]
                exact if_neg (by simp [skipped])
              rw [filterMap_cons_some isKey, eraseAllAlong, delAddressByIndex_eq]
              cases removed : eraseAlong keyOf KernelAddress.takesAlong
                  (askedKey ifindex address message.prefixLen) entries with
              | some middle => exact ih
              | none =>
                  -- What is not there is no error that a flush passes over.
                  refine iff_of_false ?_ (by rintro ⟨⟩)
                  intro succeeds
                  cases congrArg Prod.snd succeeds

theorem messageKeys_eq (ifindex : BitVec 32) (entries : List KernelAddress) :
    (Connection.getAddressesByIndex entries ifindex).filterMap (messageKey ifindex) =
      flushKeys ifindex entries := by
  induction entries with
  | nil => rfl
  | cons entry rest ih =>
      rw [Connection.getAddressesByIndex] at ih
      rw [Connection.getAddressesByIndex, map_cons, filter_cons, flushKeys, filter_cons]
      have sameIndex : (entry.message.ifindex == ifindex) = (entry.ifindex == ifindex) := rfl
      rw [sameIndex]
      cases isIndex : entry.ifindex == ifindex with
      | false => exact ih
      | true =>
          cases skipped : isSkipped ifindex entry.address with
          | true =>
              have noKey : messageKey ifindex entry.message = none := if_pos skipped
              rw [if_pos rfl, filterMap_cons_none noKey]
              exact ih
          | false =>
              have isKey : messageKey ifindex entry.message =
                  some (askedKey ifindex entry.address entry.prefixLen) :=
                if_neg (by simp [skipped])
              rw [if_pos rfl, filterMap_cons_some isKey]
              exact congrArg _ ih

theorem takesAlong_irreflexive (entry : KernelAddress) : entry.takesAlong entry = false := by
  rw [KernelAddress.takesAlong]
  cases entry.pair with
  | v4 loc address => cases entry.secondary <;> rfl
  | v6 loc address => rfl

variable {entries : List KernelAddress}

theorem toRemove_of_key (listed : keyOf entry ∈ flushKeys ifindex entries) :
    toRemove ifindex entry = true := by
  obtain ⟨visited, member, sameKey⟩ := mem_map.mp listed
  have isVisited := (mem_filter.mp member).2
  rw [Bool.and_eq_true, Bool.not_eq_true'] at isVisited
  have sameIndex : entry.ifindex = ifindex := by
    rw [← (askedKey_parts entry.ifindex entry.loc entry.prefixLen).1]
    exact (congrArg Prod.fst sameKey).symm.trans (askedKey_parts ..).1
  have sameAddress : entry.loc = visited.address := by
    rw [← (askedKey_parts entry.ifindex entry.loc entry.prefixLen).2]
    exact (congrArg (·.2.1) sameKey).symm.trans (askedKey_parts ..).2
  rw [toRemove, mayStay, sameIndex, sameAddress, isVisited.2]
  simp

/-- The addresses to remove have the keys that the flush asks for, in some
order, and none is removed with its primary address. -/
structure Removable (ifindex : BitVec 32) (entries : List KernelAddress) : Prop where
  sameKeys : (flushKeys ifindex entries).Perm ((entries.filter (toRemove ifindex)).map keyOf)
  undisturbed : Undisturbed keyOf KernelAddress.takesAlong (flushKeys ifindex entries)
      (entries.filter (toRemove ifindex))

theorem flushed_iff_exists (entries : List KernelAddress) (ifindex : BitVec 32) : Flushed ifindex
        (Connection.flushAddressesByIndex order entries ifindex) ↔
      ∃ left, eraseAllAlong keyOf KernelAddress.takesAlong
            (flushKeys ifindex entries) entries = some left ∧
          left.filter (toRemove ifindex) = [] := by
  have isOk (left : List KernelAddress) : Connection.flushAddressesByIndex order entries ifindex =
          (left, .ok ()) ↔
        eraseAllAlong keyOf KernelAddress.takesAlong
          (flushKeys ifindex entries) entries = some left := by
    rw [← messageKeys_eq]
    exact flushLoop_eq_ok_iff order
  have nothing (left : List KernelAddress) : left.filter (toRemove ifindex) = [] ↔
        ∀ entry ∈ left, entry.ifindex = ifindex → mayStay ifindex entry = true := by
    rw [filter_eq_nil_iff]
    refine forall₂_congr fun entry _ => ?_
    simp [toRemove]
  constructor
  · rintro ⟨succeeds, rest⟩
    exact ⟨_, (isOk _).mp (Prod.ext rfl succeeds), (nothing _).mpr rest⟩
  · rintro ⟨left, removed, empty⟩
    rw [(isOk left).mpr removed]
    exact ⟨rfl, (nothing left).mp empty⟩

theorem eraseAllAlong_toRemove (entries : List KernelAddress) (ifindex : BitVec 32) :
    (eraseAllAlong keyOf KernelAddress.takesAlong (flushKeys ifindex entries) entries).map
        (List.filter (toRemove ifindex)) =
      eraseAllAlong keyOf KernelAddress.takesAlong
        (flushKeys ifindex entries) (entries.filter (toRemove ifindex)) :=
  filter_eraseAllAlong keyOf KernelAddress.takesAlong fun _ _ listed => toRemove_of_key listed

theorem flushed_of_removable (removable : Removable ifindex entries) : Flushed ifindex
      (Connection.flushAddressesByIndex order entries ifindex) := by
  have count := removable.sameKeys.length_eq
  rw [length_map] at count
  have commutes := eraseAllAlong_toRemove entries ifindex
  have succeeds := (eraseAllAlong_isSome_iff keyOf KernelAddress.takesAlong
    takesAlong_irreflexive (Nat.le_of_eq count.symm)).mpr
      ⟨removable.sameKeys, removable.undisturbed⟩
  obtain ⟨left, removed⟩ := Option.isSome_iff_exists.mp succeeds
  have room := eraseAllAlong_length_le _ _ removed
  rw [← commutes] at removed
  obtain ⟨whole, isWhole, isLeft⟩ := Option.map_eq_some_iff.mp removed
  refine (flushed_iff_exists order entries ifindex).mpr ⟨whole, isWhole, ?_⟩
  rw [isLeft]
  exact eq_nil_of_length_eq_zero (by omega)

theorem removable_of_flushed
    (enough : (entries.filter (toRemove ifindex)).length ≤ (flushKeys ifindex entries).length)
    (flushed : Flushed ifindex (Connection.flushAddressesByIndex order entries ifindex)) :
    Removable ifindex entries := by
  obtain ⟨left, removed, _⟩ := (flushed_iff_exists order entries ifindex).mp flushed
  have commutes := eraseAllAlong_toRemove entries ifindex
  rw [removed] at commutes
  obtain ⟨same, later⟩ :=
    (eraseAllAlong_isSome_iff keyOf KernelAddress.takesAlong
      takesAlong_irreflexive enough).mp (by rw [← commutes]; rfl)
  exact ⟨same, later⟩

theorem flushKeys_of_local
    (isLocal : ∀ entry ∈ entries, entry.ifindex = ifindex → entry.address = entry.loc) :
    flushKeys ifindex entries = (entries.filter (toRemove ifindex)).map keyOf := by
  have sameFilter :
      (entries.filter fun entry => entry.ifindex == ifindex && !isSkipped ifindex entry.address) =
        entries.filter (toRemove ifindex) := by
    refine filter_congr fun entry member => ?_
    by_cases isIndex : entry.ifindex = ifindex
    · rw [toRemove, mayStay, isLocal entry member isIndex]
    · rw [toRemove, beq_eq_false_iff_ne.mpr isIndex, Bool.false_and, Bool.false_and]
  rw [flushKeys, sameFilter]
  refine map_congr_left fun entry listed => ?_
  obtain ⟨member, removed⟩ := mem_filter.mp listed
  rw [toRemove, Bool.and_eq_true, beq_iff_eq] at removed
  rw [keyOf, isLocal entry member removed.1, removed.1]

/-- Which addresses are removed.  A deletion removes an address as asked
exactly if, for IPv4, the first equal address has the prefix length.  A flush
does as asked if the addresses to remove can be removed one by one, and only
then, unless an address that may not stay has the loopback address as its peer.
Without peers, it does exactly if no primary address comes before one of its
secondaries. -/
theorem addresses_removed_iff (entries : List KernelAddress) (ifindex : BitVec 32) :
    (∀ (address : IpAddr) (prefixLen : UInt8), RemovedOnly ifindex address prefixLen entries
          (Connection.delAddressByIndex order entries ifindex address prefixLen) ↔
        FirstHasPrefix ifindex address prefixLen entries) ∧
    (Removable ifindex entries → Flushed ifindex
        (Connection.flushAddressesByIndex order entries ifindex)) ∧
    ((∀ entry ∈ entries, entry.ifindex = ifindex → isSkipped ifindex entry.address = true →
          isSkipped ifindex entry.loc = true) →
      (Flushed ifindex (Connection.flushAddressesByIndex order entries ifindex) ↔
        Removable ifindex entries)) ∧
    ((∀ entry ∈ entries, entry.ifindex = ifindex → entry.address = entry.loc) →
      (Flushed ifindex (Connection.flushAddressesByIndex order entries ifindex) ↔
        (entries.filter (toRemove ifindex)).Pairwise fun entry other =>
          entry.takesAlong other = false)) := by
  have exactly
      (stays : ∀ entry ∈ entries, entry.ifindex = ifindex → isSkipped ifindex entry.address = true →
          isSkipped ifindex entry.loc = true) :
      Flushed ifindex (Connection.flushAddressesByIndex order entries ifindex) ↔
        Removable ifindex entries := by
    refine ⟨removable_of_flushed order ?_, flushed_of_removable order⟩
    rw [flushKeys, length_map, ← countP_eq_length_filter, ← countP_eq_length_filter]
    refine countP_mono_left fun entry member removed => ?_
    rw [toRemove, Bool.and_eq_true, beq_iff_eq, Bool.not_eq_true'] at removed
    have visited : isSkipped ifindex entry.address = false := by
      by_contra skipped
      have alsoLocal := stays entry member removed.1 (by simpa using skipped)
      exact Bool.false_ne_true (removed.2.symm.trans alsoLocal)
    rw [removed.1, visited]
    simp
  refine ⟨fun address prefixLen =>
    delAddressByIndex_removedOnly_iff order entries ifindex address prefixLen,
    flushed_of_removable order, exactly, fun isLocal => ?_⟩
  rw [exactly fun entry member isIndex skipped => by rwa [← isLocal entry member isIndex]]
  have inOrder := flushKeys_of_local isLocal
  constructor
  · rintro ⟨_, undisturbed⟩
    rw [inOrder] at undisturbed
    exact (undisturbed_map_iff _ _ takesAlong_irreflexive _).mp undisturbed
  · intro pairwise
    refine ⟨by rw [inOrder], ?_⟩
    rw [inOrder]
    exact (undisturbed_map_iff _ _ takesAlong_irreflexive _).mpr pairwise

/-- The address 10.0.0.1/24 and a secondary, 10.0.0.2/24, on interface 2. -/
def primaryAndSecondary : List KernelAddress :=
  [{ ifindex := 2, pair := .v4 0x0A000001 0x0A000001, prefixLen := 24,
     label := [], secondary := false },
    { ifindex := 2, pair := .v4 0x0A000002 0x0A000002, prefixLen := 24,
      label := [], secondary := true }]

/-- A deletion of 10.0.0.1/16, which is not configured, removes both addresses
and succeeds; a flush removes both and fails. -/
theorem primaryAndSecondary_misremoved : Connection.delAddressByIndex .little primaryAndSecondary 2
        (.v4 0x0A000001) 16 = ([], .ok ()) ∧
      Connection.flushAddressesByIndex .little primaryAndSecondary 2 =
        ([], .error (.kernel EADDRNOTAVAIL none none)) := by
  decide +kernel

end Nlink.Addr
