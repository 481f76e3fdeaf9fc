import Nlink.GenlRequest

namespace Nlink.Mptcp

open Foundation Netlink Writer

/-!
# The path manager of MPTCP

The builders with their setters, the requests that they are sent in, and what the
kernel reads in them; and the endpoints that are read from a dump.
-/

inductive IpAddr where
  | v4 (addr : Ipv4Addr)
  | v6 (addr : Ipv6Addr)

/-!
## Identifiers
-/

namespace MptcpPmCmd

def ADD_ADDR : UInt8 := 1
def ANNOUNCE : UInt8 := 8
def REMOVE : UInt8 := 9
def SUBFLOW_CREATE : UInt8 := 10
def SUBFLOW_DESTROY : UInt8 := 11

end MptcpPmCmd

def MptcpPmAttr.ADDR : Nat := 1

namespace MptcpPmAddrAttr

def FAMILY : Nat := 1
def ID : Nat := 2
def ADDR4 : Nat := 3
def ADDR6 : Nat := 4
def PORT : Nat := 5
def FLAGS : Nat := 6
def IF_IDX : Nat := 7

end MptcpPmAddrAttr

namespace MptcpAttr

def TOKEN : Nat := 1
def FAMILY : Nat := 2
def LOC_ID : Nat := 3
def REM_ID : Nat := 4
def SADDR4 : Nat := 5
def SADDR6 : Nat := 6
def DADDR4 : Nat := 7
def DADDR6 : Nat := 8
def SPORT : Nat := 9
def DPORT : Nat := 10
def BACKUP : Nat := 11
def IF_IDX : Nat := 15

end MptcpAttr

attribute [simp] MptcpPmAttr.ADDR MptcpPmAddrAttr.FAMILY MptcpPmAddrAttr.ID
  MptcpPmAddrAttr.ADDR4 MptcpPmAddrAttr.ADDR6 MptcpPmAddrAttr.PORT
  MptcpPmAddrAttr.FLAGS MptcpPmAddrAttr.IF_IDX MptcpAttr.TOKEN MptcpAttr.FAMILY
  MptcpAttr.LOC_ID MptcpAttr.REM_ID MptcpAttr.SADDR4 MptcpAttr.SADDR6
  MptcpAttr.DADDR4 MptcpAttr.DADDR6 MptcpAttr.SPORT MptcpAttr.DPORT
  MptcpAttr.BACKUP MptcpAttr.IF_IDX

def AF_INET : BitVec 16 := 2
def AF_INET6 : BitVec 16 := 10

/-!
## Builders
-/

structure MptcpFlags where
  signal : Bool := false
  subflow : Bool := false
  backup : Bool := false
  fullmesh : Bool := false
  deriving DecidableEq

namespace MptcpFlags

def SIGNAL : BitVec 32 := 1
def SUBFLOW : BitVec 32 := 2
def BACKUP : BitVec 32 := 4
def FULLMESH : BitVec 32 := 8

def fromRaw (flags : BitVec 32) : MptcpFlags where
  signal := flags &&& SIGNAL ≠ 0
  subflow := flags &&& SUBFLOW ≠ 0
  backup := flags &&& BACKUP ≠ 0
  fullmesh := flags &&& FULLMESH ≠ 0

def toRaw (self : MptcpFlags) : BitVec 32 :=
  (if self.signal then SIGNAL else 0) ||| (if self.subflow then SUBFLOW else 0)
    ||| (if self.backup then BACKUP else 0)
    ||| (if self.fullmesh then FULLMESH else 0)

end MptcpFlags

structure MptcpEndpointBuilder where
  id : Option (BitVec 8) := none
  address : IpAddr
  port : Option (BitVec 16) := none
  dev : Option String := none
  ifindex : Option (BitVec 32) := none
  flags : MptcpFlags := {}

/-- The setters of an endpoint's builder. -/
inductive EndpointSetter where
  | id (id : BitVec 8)
  | port (port : BitVec 16)
  | dev (dev : String)
  | ifindex (ifindex : BitVec 32)
  | signal
  | subflow
  | backup
  | fullmesh
  | flags (flags : MptcpFlags)

def MptcpEndpointBuilder.set (self : MptcpEndpointBuilder) : EndpointSetter → MptcpEndpointBuilder
  | .id id => { self with id := some id }
  | .port port => { self with port := some port }
  | .dev dev => { self with dev := some dev }
  | .ifindex ifindex => { self with ifindex := some ifindex }
  | .signal => { self with flags := { self.flags with signal := true } }
  | .subflow => { self with flags := { self.flags with subflow := true } }
  | .backup => { self with flags := { self.flags with backup := true } }
  | .fullmesh => { self with flags := { self.flags with fullmesh := true } }
  | .flags flags => { self with flags := flags }

structure MptcpAddress where
  addr : IpAddr
  port : Option (BitVec 16) := none

structure MptcpSubflowBuilder where
  token : BitVec 32
  localId : Option (BitVec 8) := none
  remoteId : Option (BitVec 8) := none
  localAddr : Option MptcpAddress := none
  remoteAddr : Option MptcpAddress := none
  ifindex : Option (BitVec 32) := none
  dev : Option String := none
  backup : Bool := false

/-- The setters of a subflow's builder. -/
inductive SubflowSetter where
  | localId (id : BitVec 8)
  | remoteId (id : BitVec 8)
  | localAddr (addr : MptcpAddress)
  | localPort (port : BitVec 16)
  | remoteAddr (addr : MptcpAddress)
  | remotePort (port : BitVec 16)
  | dev (dev : String)
  | ifindex (ifindex : BitVec 32)
  | backup

/-- A port is set on an address that is there. -/
def withPort (addr : Option MptcpAddress) (port : BitVec 16) : Option MptcpAddress :=
  addr.map fun addr => { addr with port := some port }

def MptcpSubflowBuilder.set (self : MptcpSubflowBuilder) : SubflowSetter → MptcpSubflowBuilder
  | .localId id => { self with localId := some id }
  | .remoteId id => { self with remoteId := some id }
  | .localAddr addr => { self with localAddr := some addr }
  | .localPort port => { self with localAddr := withPort self.localAddr port }
  | .remoteAddr addr => { self with remoteAddr := some addr }
  | .remotePort port => { self with remoteAddr := withPort self.remoteAddr port }
  | .dev dev => { self with dev := some dev }
  | .ifindex ifindex => { self with ifindex := some ifindex }
  | .backup => { self with backup := true }

structure MptcpAnnounceBuilder where
  token : BitVec 32
  addrId : Option (BitVec 8) := none
  address : Option MptcpAddress := none

/-- The setters of an announcement's builder. -/
inductive AnnounceSetter where
  | addrId (id : BitVec 8)
  | address (addr : MptcpAddress)
  | port (port : BitVec 16)

def MptcpAnnounceBuilder.set (self : MptcpAnnounceBuilder) : AnnounceSetter → MptcpAnnounceBuilder
  | .addrId id => { self with addrId := some id }
  | .address addr => { self with address := some addr }
  | .port port => { self with address := withPort self.address port }

/-- The calls whose requests are built: an endpoint, subflows, and addresses of
a connection. -/
inductive Call where
  | addEndpoint (address : IpAddr) (setters : List EndpointSetter)
  | createSubflow (token : BitVec 32) (setters : List SubflowSetter)
  | destroySubflow (token : BitVec 32) (setters : List SubflowSetter)
  | announceAddr (token : BitVec 32) (setters : List AnnounceSetter)
  | delAddr (token : BitVec 32) (addrId : BitVec 8)

/-!
## What is sent
-/

section Send

open Writer

variable {order : ByteOrder}

def IpAddr.family : IpAddr → BitVec 16
  | .v4 _ => AF_INET
  | .v6 _ => AF_INET6

/-- The bytes of an address under the identifier of its family. -/
def writeIpAddr (attr4 attr6 : Nat) : IpAddr → Writer order
  | .v4 addr => attr attr4 addr.octets
  | .v6 addr => attr attr6 addr.octets

/-- `append_endpoint_attrs`. -/
def appendEndpointAttrs (endpoint : MptcpEndpointBuilder) : Writer order :=
  let flags := endpoint.flags.toRaw
  all
    [u16 MptcpPmAddrAttr.FAMILY endpoint.address.family,
      writeIpAddr MptcpPmAddrAttr.ADDR4 MptcpPmAddrAttr.ADDR6 endpoint.address,
      whenSome endpoint.id (u8 MptcpPmAddrAttr.ID),
      whenSome endpoint.port (u16Be MptcpPmAddrAttr.PORT),
      whenSome endpoint.ifindex (u32 MptcpPmAddrAttr.IF_IDX),
      when (flags ≠ 0) (u32 MptcpPmAddrAttr.FLAGS flags)]

/-- `append_source_addr`. -/
def appendSourceAddr (addr : MptcpAddress) : Writer order :=
  all
    [u16 MptcpAttr.FAMILY addr.addr.family, writeIpAddr MptcpAttr.SADDR4 MptcpAttr.SADDR6 addr.addr,
      whenSome addr.port (u16Be MptcpAttr.SPORT)]

/-- `append_dest_addr`. -/
def appendDestAddr (addr : MptcpAddress) : Writer order :=
  all
    [writeIpAddr MptcpAttr.DADDR4 MptcpAttr.DADDR6 addr.addr,
      whenSome addr.port (u16Be MptcpAttr.DPORT)]

/-- What `create_subflow` and `destroy_subflow` begin with. -/
def subflowAttrs (subflow : MptcpSubflowBuilder) : Writer order :=
  all
    [u32 MptcpAttr.TOKEN subflow.token, whenSome subflow.localId (u8 MptcpAttr.LOC_ID),
      whenSome subflow.remoteId (u8 MptcpAttr.REM_ID),
      whenSome subflow.localAddr appendSourceAddr,
      whenSome subflow.remoteAddr appendDestAddr]

def Call.request : Call → UInt8 × Writer order
  | .addEndpoint address setters =>
      let endpoint := setters.foldl MptcpEndpointBuilder.set { address := address }
      (MptcpPmCmd.ADD_ADDR, nest MptcpPmAttr.ADDR (appendEndpointAttrs endpoint))
  | .createSubflow token setters =>
      let subflow := setters.foldl MptcpSubflowBuilder.set { token := token }
      (MptcpPmCmd.SUBFLOW_CREATE, all
          [subflowAttrs subflow, whenSome subflow.ifindex (u32 MptcpAttr.IF_IDX),
            when subflow.backup (u8 MptcpAttr.BACKUP 1)])
  | .destroySubflow token setters =>
      let subflow := setters.foldl MptcpSubflowBuilder.set { token := token }
      (MptcpPmCmd.SUBFLOW_DESTROY, subflowAttrs subflow)
  | .announceAddr token setters =>
      let announce := setters.foldl MptcpAnnounceBuilder.set { token := token }
      (MptcpPmCmd.ANNOUNCE, all
          [u32 MptcpAttr.TOKEN announce.token, whenSome announce.addrId (u8 MptcpAttr.LOC_ID),
            whenSome announce.address appendSourceAddr])
  | .delAddr token addrId =>
      (MptcpPmCmd.REMOVE, all [u32 MptcpAttr.TOKEN token, u8 MptcpAttr.LOC_ID addrId])

end Send

def MPTCP_PM_GENL_VERSION : UInt8 := 1

/-- `mptcp_command`: building a request does not fail. -/
def mptcpCommand (order : ByteOrder) (familyId : BitVec 16) (call : Call) :
    MessageBuilder :=
  let (cmd, writer) : UInt8 × Writer order := call.request
  genlRequest order familyId (.ofNat 16 (NLM_F_REQUEST ||| NLM_F_ACK)) cmd MPTCP_PM_GENL_VERSION writer

/-!
## What the kernel reads
-/

/-- An address with its settings.  An identifier, a port or an index of zero is
none. -/
structure Entry where
  address : IpAddr
  id : BitVec 8
  port : BitVec 16
  flags : BitVec 32
  ifindex : BitVec 32

/-- What the kernel is asked to do. -/
inductive Action where
  | addAddr (entry : Entry)
  | announce (token : BitVec 32) (entry : Entry)
  | remove (token : BitVec 32) (id : BitVec 8)
  | create (token : BitVec 32) (localEntry remote : Entry)
  | destroy (token : BitVec 32) (localEntry remote : Entry)

section Read

variable (order : ByteOrder)

/-- The address of a nest: the one of the family that it names. -/
def readIpAddr (attrs : List Attribute) : Option IpAddr := do
  let family ← lastOf attrs 1
  if readU16 order family = AF_INET then
    return .v4 (.fromOctets (← lastOf attrs 3))
  else if readU16 order family = AF_INET6 then
    return .v6 (.fromOctets (← lastOf attrs 4))
  else
    none

/-- A nest of an address; its port is in the byte order of the host. -/
def readEntry (payload : List UInt8) : Option Entry := do
  let attrs := attrIter order payload
  let address ← readIpAddr order attrs
  return {
    address := address
    id := ((lastOf attrs 2).map readU8).getD 0
    port := ((lastOf attrs 5).map (readU16 order)).getD 0
    flags := ((lastOf attrs 6).map (readU32 order)).getD 0
    ifindex := ((lastOf attrs 7).map (readU32 order)).getD 0 }

/-- The token of a connection has four bytes. -/
def readToken (attrs : List Attribute) : Option (BitVec 32) :=
  (lastOf attrs 4).bind fun payload =>
    if payload.length = 4 then some (readU32 order payload) else none

/-- What a command asks for, if nothing that it needs is missing. -/
def readAction (cmd : Nat) (attrs : List Attribute) : Option Action :=
  match cmd with
  | 1 => return .addAddr (← (← lastOf attrs 1) |> readEntry order)
  | 8 => do
      let token ← readToken order attrs
      return .announce token (← (← lastOf attrs 1) |> readEntry order)
  | 9 => do
      let token ← readToken order attrs
      return .remove token (readU8 (← lastOf attrs 5))
  | 10 => do
      let token ← readToken order attrs
      let localEntry ← (← lastOf attrs 1) |> readEntry order
      return .create token localEntry (← (← lastOf attrs 6) |> readEntry order)
  | 11 => do
      let token ← readToken order attrs
      let localEntry ← (← lastOf attrs 1) |> readEntry order
      return .destroy token localEntry (← (← lastOf attrs 6) |> readEntry order)
  | _ => none

/-- What the kernel is asked to do by a request, or its error. -/
def received (request : MessageBuilder) : Except Nat Action :=
  let (cmd, attrs) := genlReceived order request
  match readAction order cmd attrs with
  | some action => .ok action
  | none => .error EINVAL

end Read

/-!
## Endpoints of a dump
-/

structure MptcpEndpoint where
  id : UInt8 := 0
  address : IpAddr := .v4 0
  port : Option (BitVec 16) := none
  ifindex : Option (BitVec 32) := none
  flags : MptcpFlags := {}

def nonZero {width : Nat} (value : BitVec width) : Option (BitVec width) :=
  if value ≠ 0 then some value else none

section Dump

variable (order : ByteOrder)

open Writer in
/-- The nest in which the kernel sends an endpoint, in the form in which it takes
one. -/
def Entry.message (entry : Entry) : Writer order :=
  nest 1
    (all [u16 1 entry.address.family, u8 2 entry.id,
        writeIpAddr 3 4 entry.address, whenSome (nonZero entry.port) (u16 5),
        whenSome (nonZero entry.flags) (u32 6),
        whenSome (nonZero entry.ifindex) (u32 7)])

/-- The messages of a dump, behind their headers. -/
def dumpAddrs (header : Vector UInt8 20) (entries : List Entry) : List (List UInt8) :=
  entries.map fun entry => header.toList ++ encodeAll order (entry.message order).attrs

/-- One turn of the loop in `parse_endpoint_attrs`. -/
def endpointAttr (endpoint : MptcpEndpoint) : Attribute → MptcpEndpoint :=
    fun (attrType, payload) =>
  if attrType = MptcpPmAddrAttr.ID ∧ payload ≠ [] then
    { endpoint with id := payload.headD 0 }
  else if attrType = MptcpPmAddrAttr.ADDR4 ∧ 4 ≤ payload.length then
    { endpoint with address := .v4 (.fromOctets (payload.take 4)) }
  else if attrType = MptcpPmAddrAttr.ADDR6 ∧ 16 ≤ payload.length then
    { endpoint with address := .v6 (.fromOctets (payload.take 16)) }
  else if attrType = MptcpPmAddrAttr.PORT ∧ 2 ≤ payload.length then
    let port := readU16 .big (payload.take 2)
    if port ≠ 0 then { endpoint with port := some port } else endpoint
  else if attrType = MptcpPmAddrAttr.FLAGS ∧ 4 ≤ payload.length then
    { endpoint with flags := .fromRaw (readU32 order (payload.take 4)) }
  else if attrType = MptcpPmAddrAttr.IF_IDX ∧ 4 ≤ payload.length then
    let ifindex := readU32 order (payload.take 4)
    if ifindex ≠ 0 then { endpoint with ifindex := some ifindex } else endpoint
  else
    endpoint

def parseEndpointAttrs (data : List UInt8) : MptcpEndpoint :=
  (attrIter order data).foldl (endpointAttr order) {}

/-- `parse_endpoint_response`: the first address of a message. -/
def parseEndpointResponse (frame : List UInt8) : Option MptcpEndpoint :=
  if frame.length < 20 then
    none
  else
    ((attrIter order (frame.drop 20)).find? (·.1 = MptcpPmAttr.ADDR)).map
      fun attr => parseEndpointAttrs order attr.2

/-- `get_endpoints`, for the responses of its dump. -/
def getEndpoints (responses : List (List UInt8)) : List MptcpEndpoint :=
  responses.filterMap (parseEndpointResponse order)

end Dump

/-!
## Requests that mean what was declared

An endpoint's request means what its builder says but for the port, which is sent
in network byte order where the kernel reads the host's, and for a device that is
named.  A request for a connection has its token where the kernel looks for an
address, so it is never understood.
-/

/-- The index of an interface, which is not zero. -/
structure IfIndex where
  value : BitVec 32
  ne_zero : value ≠ 0

/-- The index that is declared, directly or by the name of a device; `none` where
no device has the name. -/
def declaredIndex (resolve : String → Option IfIndex) (ifindex : Option (BitVec 32))
    (dev : Option String) : Option (BitVec 32) :=
  match ifindex, dev with
  | some ifindex, _ => some ifindex
  | none, some dev => (resolve dev).map IfIndex.value
  | none, none => some 0

/-- What the setters of a subflow declare, in any order. -/
structure SubflowDeclared where
  localId : Option (BitVec 8) := none
  remoteId : Option (BitVec 8) := none
  localAddr : Option IpAddr := none
  localPort : Option (BitVec 16) := none
  remoteAddr : Option IpAddr := none
  remotePort : Option (BitVec 16) := none
  ifindex : Option (BitVec 32) := none
  dev : Option String := none
  backup : Bool := false

def SubflowDeclared.add (self : SubflowDeclared) : SubflowSetter → SubflowDeclared
  | .localId id => { self with localId := some id }
  | .remoteId id => { self with remoteId := some id }
  | .localAddr addr =>
      { self with
        localAddr := some addr.addr
        localPort := addr.port <|> self.localPort }
  | .localPort port => { self with localPort := some port }
  | .remoteAddr addr =>
      { self with
        remoteAddr := some addr.addr
        remotePort := addr.port <|> self.remotePort }
  | .remotePort port => { self with remotePort := some port }
  | .dev dev => { self with dev := some dev }
  | .ifindex ifindex => { self with ifindex := some ifindex }
  | .backup => { self with backup := true }

def SubflowDeclared.entries (resolve : String → Option IfIndex) (self : SubflowDeclared) :
    Option (Entry × Entry) := do
  let localAddr ← self.localAddr
  let remoteAddr ← self.remoteAddr
  let ifindex ← declaredIndex resolve self.ifindex self.dev
  let localEntry : Entry :=
    { address := localAddr
      id := self.localId.getD 0
      port := self.localPort.getD 0
      flags := if self.backup then MptcpFlags.BACKUP else 0
      ifindex := ifindex }
  let remote : Entry :=
    { address := remoteAddr
      id := self.remoteId.getD 0
      port := self.remotePort.getD 0
      flags := 0
      ifindex := 0 }
  return (localEntry, remote)

/-- What the setters of an announcement declare, in any order. -/
structure AnnounceDeclared where
  addrId : Option (BitVec 8) := none
  address : Option IpAddr := none
  port : Option (BitVec 16) := none

def AnnounceDeclared.add (self : AnnounceDeclared) : AnnounceSetter → AnnounceDeclared
  | .addrId id => { self with addrId := some id }
  | .address addr =>
      { self with
        address := some addr.addr
        port := addr.port <|> self.port }
  | .port port => { self with port := some port }

/-- What a call asks for; `none` where it does not say all that is needed. -/
def Call.declared (resolve : String → Option IfIndex) : Call → Option Action
  | .addEndpoint address setters => do
      let endpoint := setters.foldl MptcpEndpointBuilder.set { address := address }
      let ifindex ← declaredIndex resolve endpoint.ifindex endpoint.dev
      return .addAddr
        { address := endpoint.address
          id := endpoint.id.getD 0
          port := endpoint.port.getD 0
          flags := endpoint.flags.toRaw
          ifindex := ifindex }
  | .createSubflow token setters => do
      let declared : SubflowDeclared := setters.foldl .add {}
      let (localEntry, remote) ← declared.entries resolve
      return .create token localEntry remote
  | .destroySubflow token setters => do
      let declared : SubflowDeclared := setters.foldl .add {}
      let (localEntry, remote) ← declared.entries resolve
      return .destroy token localEntry remote
  | .announceAddr token setters => do
      let declared : AnnounceDeclared := setters.foldl .add {}
      return .announce token
        { address := ← declared.address
          id := declared.addrId.getD 0
          port := declared.port.getD 0
          flags := 0
          ifindex := 0 }
  | .delAddr token addrId => some (.remove token addrId)

section Agreement

variable (order : ByteOrder) (familyId : BitVec 16)

/-- The kernel acts on exactly what a call declares.  Building a request does not
fail, so no call returns an error before it sends one. -/
def ActsAsDeclared (resolve : String → Option IfIndex) (call : Call) : Prop :=
  ∃ action, call.declared resolve = some action ∧
    received order (mptcpCommand order familyId call) = .ok action

/-- An endpoint whose port is read as it was written, and whose interface is not
given by name alone. -/
def Call.Sound : Call → Prop
  | .addEndpoint address setters =>
      let endpoint := setters.foldl MptcpEndpointBuilder.set { address := address }
      (order = .big ∨ ReadsBackwards 2 (endpoint.port.getD 0).toNat) ∧
        (endpoint.ifindex.isSome ∨ endpoint.dev = none)
  | _ => False

def Entry.asAdded (entry : Entry) : MptcpEndpoint where
  id := .ofBitVec entry.id
  address := entry.address
  port := nonZero entry.port
  ifindex := nonZero entry.ifindex
  flags := .fromRaw entry.flags

/-!
## What is read of an endpoint
-/

variable {order}

@[simp]
theorem family_v4 (addr : Ipv4Addr) : (IpAddr.v4 addr).family = AF_INET :=
  rfl

@[simp]
theorem family_v6 (addr : Ipv6Addr) : (IpAddr.v6 addr).family = AF_INET6 :=
  rfl

theorem small_writeIpAddr {attr4 attr6 : Nat} (plain4 : attr4 < 65536) (plain6 : attr6 < 65536)
    (addr : IpAddr) : (writeIpAddr attr4 attr6 addr : Writer order).Small 23 := by
  cases addr with
  | v4 addr => exact small_attr plain4 (by simp) (by decide)
  | v6 addr => exact small_attr plain6 (by simp) (by decide)

theorem small_appendEndpointAttrs (endpoint : MptcpEndpointBuilder) :
    (appendEndpointAttrs endpoint : Writer order).Small 138 := by
  have address : (writeIpAddr MptcpPmAddrAttr.ADDR4 MptcpPmAddrAttr.ADDR6
      endpoint.address : Writer order).Small 23 :=
    small_writeIpAddr (by decide) (by decide) _
  refine Writer.Small.all 23 ?_ (by simp)
  simpa using address

theorem readEntry_appendEndpointAttrs (endpoint : MptcpEndpointBuilder) : readEntry order
        (encodeAll order (appendEndpointAttrs endpoint : Writer order).attrs) =
      some
        { address := endpoint.address
          id := endpoint.id.getD 0
          port := (endpoint.port.map fun port =>
            readU16 order (ByteOrder.big.toBytes 2 port.toNat)).getD 0
          flags := endpoint.flags.toRaw
          ifindex := endpoint.ifindex.getD 0 } := by
  rw [readEntry, attrIter_payload (small_appendEndpointAttrs endpoint)]
  have isAddress : readIpAddr order (appendEndpointAttrs endpoint : Writer order).seen =
        some endpoint.address := by
    cases isIp : endpoint.address with
    | v4 addr => simp [readIpAddr, lastOf_seen, appendEndpointAttrs, isIp, writeIpAddr]
    | v6 addr =>
        have other : AF_INET6 ≠ AF_INET := by decide
        simp [readIpAddr, lastOf_seen, appendEndpointAttrs, isIp, writeIpAddr, other]
  rw [isAddress]
  have noAddress : ∀ wanted, wanted ≠ 3 → wanted ≠ 4 →
      (writeIpAddr 3 4 endpoint.address : Writer order).found wanted =
        none := by
    intro wanted not4 not6
    cases endpoint.address <;> simp [writeIpAddr, not4.symm, not6.symm]
  have flags : (Option.map (readU32 order) (if endpoint.flags.toRaw = 0 then none
        else some (order.toBytes 4 endpoint.flags.toRaw.toNat))).getD 0 =
          endpoint.flags.toRaw := by
    by_cases isZero : endpoint.flags.toRaw = 0
    · rw [if_pos isZero, isZero]
      rfl
    · rw [if_neg isZero, Option.map_some, readU32_toBytes, Option.getD_some]
  simp [lastOf_seen, appendEndpointAttrs, noAddress,
    bind_some_eq_map, Function.comp_def]
  exact flags

variable {call : Call}

theorem received_mptcpCommand {size : Nat} (small : (call.request.2 : Writer order).Small size) :
    received order (mptcpCommand order familyId call) =
      match readAction order (@Call.request order call).1.toNat
        (call.request.2 : Writer order).seen with
      | some action => .ok action
      | none => .error EINVAL := by
  have found := genlReceived_genlRequest familyId (.ofNat 16 (NLM_F_REQUEST ||| NLM_F_ACK))
    (@Call.request order call).1 MPTCP_PM_GENL_VERSION small
  rw [received, mptcpCommand]
  exact congrArg (fun seen : Nat × List Attribute => match readAction order seen.1 seen.2 with
    | some action => Except.ok action
    | none => .error EINVAL) found

theorem received_addEndpoint (address : IpAddr) (setters : List EndpointSetter) :
    received order (mptcpCommand order familyId (.addEndpoint address setters)) =
      let endpoint := setters.foldl MptcpEndpointBuilder.set { address := address }
      .ok (.addAddr
        { address := endpoint.address
          id := endpoint.id.getD 0
          port := (endpoint.port.map fun port =>
            readU16 order (ByteOrder.big.toBytes 2 port.toNat)).getD 0
          flags := endpoint.flags.toRaw
          ifindex := endpoint.ifindex.getD 0 }) := by
  generalize isEndpoint : setters.foldl MptcpEndpointBuilder.set { address := address } = endpoint
  have sent : mptcpCommand order familyId (.addEndpoint address setters) =
      genlRequest order familyId (.ofNat 16 (NLM_F_REQUEST ||| NLM_F_ACK))
        MptcpPmCmd.ADD_ADDR MPTCP_PM_GENL_VERSION
        (.nest MptcpPmAttr.ADDR (appendEndpointAttrs endpoint)) := by
    rw [← isEndpoint]
    rfl
  have small : (nest MptcpPmAttr.ADDR (appendEndpointAttrs endpoint) :
      Writer order).Small 145 :=
    (small_appendEndpointAttrs endpoint).nest (by decide) (by decide)
  have isEntry : lastOf (nest MptcpPmAttr.ADDR
      (appendEndpointAttrs endpoint) : Writer order).seen 1 =
        some (encodeAll order (appendEndpointAttrs endpoint : Writer order).attrs) :=
    found_nest 1 (by decide) _
  have isAction : readAction order MptcpPmCmd.ADD_ADDR.toNat
      (nest MptcpPmAttr.ADDR (appendEndpointAttrs endpoint) :
        Writer order).seen = (readEntry order (encodeAll order
          (appendEndpointAttrs endpoint : Writer order).attrs)).bind
            fun entry => some (.addAddr entry) := by
    change (lastOf _ 1).bind _ = _
    rw [isEntry]
    rfl
  rw [received, sent, genlReceived_genlRequest familyId _ _ _ small]
  simp only [isAction, readEntry_appendEndpointAttrs, Option.bind_some]

theorem readU16_big_eq_iff (port : BitVec 16) :
    readU16 order (ByteOrder.big.toBytes 2 port.toNat) = port ↔
      order = .big ∨ ReadsBackwards 2 port.toNat := by
  have bound : order.ofBytes (ByteOrder.big.toBytes 2 port.toNat) < 2 ^ 16 := by
    have bytes := order.ofBytes_lt (ByteOrder.big.toBytes 2 port.toNat)
    rwa [ByteOrder.toBytes_length] at bytes
  rw [← ofBytes_toBytes_big_eq_iff order port.isLt, ← BitVec.toNat_inj, readU16,
    List.take_of_length_le (Nat.le_of_eq (ByteOrder.toBytes_length _ _ _)),
    BitVec.toNat_ofNat, Nat.mod_eq_of_lt bound]

variable (resolve : String → Option IfIndex)

theorem declaredIndex_eq_iff (ifindex : Option (BitVec 32)) (dev : Option String) :
    declaredIndex resolve ifindex dev = some (ifindex.getD 0) ↔ ifindex.isSome ∨ dev = none := by
  cases ifindex with
  | some ifindex => exact iff_of_true rfl (.inl rfl)
  | none =>
      cases dev with
      | none => exact iff_of_true rfl (.inr rfl)
      | some dev =>
          refine iff_of_false ?_ (by simp)
          intro isZero
          obtain ⟨index, -, isZero⟩ := Option.map_eq_some_iff.mp isZero
          exact index.ne_zero isZero

theorem actsAsDeclared_addEndpoint (address : IpAddr) (setters : List EndpointSetter) :
    ActsAsDeclared order familyId resolve (.addEndpoint address setters) ↔
      (Call.addEndpoint address setters).Sound order := by
  rw [ActsAsDeclared, received_addEndpoint, Call.Sound, Call.declared]
  generalize setters.foldl MptcpEndpointBuilder.set { address := address } = endpoint
  have port : (endpoint.port.map fun port =>
      readU16 order (ByteOrder.big.toBytes 2 port.toNat)).getD 0 = endpoint.port.getD 0 ↔
      order = .big ∨ ReadsBackwards 2 (endpoint.port.getD 0).toNat := by
    cases endpoint.port with
    | none => exact iff_of_true rfl (.inr (by decide))
    | some port => exact readU16_big_eq_iff port
  have index := declaredIndex_eq_iff resolve endpoint.ifindex endpoint.dev
  constructor
  · rintro ⟨action, isDeclared, isReceived⟩
    obtain ⟨ifindex, isIndex, isAction⟩ := Option.bind_eq_some_iff.mp isDeclared
    have same := (Option.some.inj isAction).trans (Except.ok.inj isReceived).symm
    simp only [Action.addAddr.injEq, Entry.mk.injEq, true_and] at same
    exact ⟨port.mp same.1.symm, index.mp (same.2 ▸ isIndex)⟩
  · rintro ⟨portOk, indexOk⟩
    refine ⟨_, Option.bind_eq_some_iff.mpr ⟨_, index.mpr indexOk, rfl⟩, ?_⟩
    simp only [port.mpr portOk]

/-!
## Requests for a connection
-/

theorem found_writeIpAddr {attr4 attr6 wanted : Nat} (not4 : attr4 % 16384 ≠ wanted)
    (not6 : attr6 % 16384 ≠ wanted) (addr : IpAddr) :
    (writeIpAddr attr4 attr6 addr : Writer order).found wanted = none := by
  cases addr <;> simp [writeIpAddr, not4, not6]

theorem found_appendSourceAddr (addr : MptcpAddress) :
    (appendSourceAddr addr : Writer order).found 4 = none := by
  simp [appendSourceAddr, found_writeIpAddr]

theorem found_appendDestAddr (addr : MptcpAddress) :
    (appendDestAddr addr : Writer order).found 4 = none := by
  simp [appendDestAddr, found_writeIpAddr]

theorem found_subflowAttrs (subflow : MptcpSubflowBuilder) :
    (subflowAttrs subflow : Writer order).found 4 =
      subflow.remoteId.map fun id => [UInt8.ofNat id.toNat] := by
  simp [subflowAttrs, found_appendSourceAddr, found_appendDestAddr, bind_some_eq_map]

def Call.ForConnection : Call → Prop
  | .addEndpoint _ _ => False
  | _ => True

theorem readToken_request (forConnection : call.ForConnection) :
    readToken order (call.request.2 : Writer order).seen = none := by
  have short : ∀ id : Option (BitVec 8),
      ((id.map fun id => [UInt8.ofNat id.toNat]).bind fun payload =>
        if payload.length = 4 then some (readU32 order payload) else none) =
          none := by
    intro id
    cases id <;> rfl
  rw [readToken, lastOf_seen]
  cases call with
  | addEndpoint address setters => exact absurd forConnection id
  | createSubflow token setters =>
      generalize isSubflow : setters.foldl MptcpSubflowBuilder.set { token := token } = subflow
      have found : ((Call.createSubflow token setters).request.2 : Writer order).found 4 =
            subflow.remoteId.map fun id => [UInt8.ofNat id.toNat] := by
        simp [Call.request, isSubflow, found_subflowAttrs]
      rw [found]
      exact short subflow.remoteId
  | destroySubflow token setters =>
      exact (congrArg (Option.bind · _) (found_subflowAttrs _)).trans (short _)
  | announceAddr token setters => simp [Call.request, found_appendSourceAddr]
  | delAddr token addrId => simp [Call.request]

theorem small_appendSourceAddr (addr : MptcpAddress) :
    (appendSourceAddr addr : Writer order).Small 69 := by
  have address : (writeIpAddr MptcpAttr.SADDR4 MptcpAttr.SADDR6 addr.addr :
      Writer order).Small 23 :=
    small_writeIpAddr (by decide) (by decide) _
  refine Writer.Small.all 23 ?_ (by simp)
  simpa using address

theorem small_appendDestAddr (addr : MptcpAddress) :
    (appendDestAddr addr : Writer order).Small 69 := by
  have address : (writeIpAddr MptcpAttr.DADDR4 MptcpAttr.DADDR6 addr.addr :
      Writer order).Small 23 :=
    small_writeIpAddr (by decide) (by decide) _
  refine Writer.Small.all 23 ?_ (by simp)
  simpa using address

theorem small_subflowAttrs (subflow : MptcpSubflowBuilder) :
    (subflowAttrs subflow : Writer order).Small 345 := by
  refine Writer.Small.all 69 ?_ (by simp)
  simp [small_appendSourceAddr, small_appendDestAddr]

theorem small_request (forConnection : call.ForConnection) :
    (call.request.2 : Writer order).Small 1035 := by
  cases call with
  | addEndpoint address setters => exact absurd forConnection id
  | createSubflow token setters =>
      refine Writer.Small.all 345 ?_ (by simp)
      simp [small_subflowAttrs]
  | destroySubflow token setters => exact (small_subflowAttrs _).mono (by decide)
  | announceAddr token setters =>
      refine Writer.Small.all 345 ?_ (by simp)
      simp [fun addr => (@small_appendSourceAddr order addr).mono (show 69 ≤ 345 by decide)]
  | delAddr token addrId =>
      refine Writer.Small.all 345 ?_ (by simp)
      simp

theorem not_actsAsDeclared
    (forConnection : call.ForConnection) : ¬ ActsAsDeclared order familyId resolve call := by
  have notUnderstood : received order (mptcpCommand order familyId call) = .error EINVAL := by
    have noToken := @readToken_request order _ forConnection
    have noAction : readAction order (@Call.request order call).1.toNat
        (call.request.2 : Writer order).seen = none := by
      cases call with
      | addEndpoint address setters => exact absurd forConnection id
      | delAddr token addrId => rfl
      | _ => exact congrArg (Option.bind · _) noToken
    rw [received_mptcpCommand familyId (small_request forConnection), noAction]
  rintro ⟨action, -, isReceived⟩
  rw [notUnderstood] at isReceived
  cases isReceived

/-!
## Endpoints that are read
-/

/-- What `get_endpoints` returns for the kernel's endpoints is each of them, as it
was added. -/
def ReturnsAll (order : ByteOrder) (entries : List Entry) : Prop :=
  ∀ header, getEndpoints order (dumpAddrs order header entries) = entries.map Entry.asAdded

/-- The attributes of an endpoint that is dumped. -/
def Entry.body (entry : Entry) : Writer order :=
  .all
    [.u16 1 entry.address.family, .u8 2 entry.id,
      writeIpAddr 3 4 entry.address, .whenSome (nonZero entry.port) (.u16 5),
      .whenSome (nonZero entry.flags) (.u32 6),
      .whenSome (nonZero entry.ifindex) (.u32 7)]

theorem small_body (entry : Entry) : (entry.body : Writer order).Small 138 := by
  have address : (writeIpAddr 3 4 entry.address : Writer order).Small 23 :=
    small_writeIpAddr (by decide) (by decide) _
  refine Writer.Small.all 23 ?_ (by simp)
  simpa using address

theorem foldl_writeIpAddr (endpoint : MptcpEndpoint) (addr : IpAddr) :
    (writeIpAddr 3 4 addr : Writer order).seen.foldl (endpointAttr order) endpoint =
      { endpoint with address := addr } := by
  cases addr with
  | v4 addr =>
      change endpointAttr order endpoint (3, addr.octets) = _
      simp [endpointAttr]
  | v6 addr =>
      change endpointAttr order endpoint (4, addr.octets) = _
      simp [endpointAttr]

theorem nonZero_cases {width : Nat} (value : BitVec width) :
    nonZero value = none ∧ value = 0 ∨ nonZero value = some value := by
  by_cases isZero : value = 0
  · exact .inl ⟨if_neg (not_not_intro isZero), isZero⟩
  · exact .inr (if_pos isZero)

/-- An endpoint is read as it was added, but for its port. -/
theorem parseEndpointAttrs_body (entry : Entry) :
    parseEndpointAttrs order (encodeAll order (entry.body : Writer order).attrs) =
      { entry.asAdded with
        port := (nonZero entry.port).bind fun port =>
          nonZero (readU16 .big (order.toBytes 2 port.toNat)) } := by
  have family : ∀ endpoint : MptcpEndpoint,
      (u16 1 entry.address.family : Writer order).seen.foldl
        (endpointAttr order) endpoint = endpoint := by
    intro endpoint
    rfl
  have id : ∀ endpoint : MptcpEndpoint,
      (u8 2 entry.id : Writer order).seen.foldl (endpointAttr order)
        endpoint = { endpoint with id := .ofBitVec entry.id } := by
    intro endpoint
    change endpointAttr order endpoint (2, [UInt8.ofNat entry.id.toNat]) = _
    simp [endpointAttr]
  rw [parseEndpointAttrs, attrIter_payload (small_body entry), Entry.body]
  simp only [seen_all_cons, seen_all_nil, List.append_nil, List.foldl_append, family,
    id, foldl_writeIpAddr, foldl_seen_whenSome]
  have whole : ∀ width value : Nat,
      (order.toBytes width value).take width = order.toBytes width value :=
    fun width value => List.take_of_length_le (Nat.le_of_eq (ByteOrder.toBytes_length _ _ _))
  have port : ∀ (endpoint : MptcpEndpoint) (value : BitVec 16),
      (u16 5 value : Writer order).seen.foldl (endpointAttr order) endpoint =
      { endpoint with
        port := (nonZero (readU16 .big (order.toBytes 2 value.toNat))).or endpoint.port } := by
    intro endpoint value
    change endpointAttr order endpoint (5, order.toBytes 2 value.toNat) = _
    simp only [endpointAttr, whole, nonZero]
    generalize readU16 .big (order.toBytes 2 value.toNat) = read
    by_cases isZero : read = 0#16 <;> simp [isZero]
  have flags : ∀ (endpoint : MptcpEndpoint) (value : BitVec 32),
      (u32 6 value : Writer order).seen.foldl (endpointAttr order)
        endpoint = { endpoint with flags := .fromRaw value } := by
    intro endpoint value
    change endpointAttr order endpoint (6, order.toBytes 4 value.toNat) = _
    simp [endpointAttr, whole]
  have ifindex : ∀ (endpoint : MptcpEndpoint) (value : BitVec 32),
      (u32 7 value : Writer order).seen.foldl (endpointAttr order) endpoint =
      { endpoint with ifindex := (nonZero value).or endpoint.ifindex } := by
    intro endpoint value
    change endpointAttr order endpoint (7, order.toBytes 4 value.toNat) = _
    simp only [endpointAttr, whole, readU32_toBytes, nonZero]
    by_cases isZero : value = 0#32 <;> simp [isZero]
  simp only [port, flags, ifindex, Entry.asAdded]
  have isFlags : nonZero entry.flags = none ∧ MptcpFlags.fromRaw entry.flags = {} ∨
        nonZero entry.flags = some entry.flags :=
    (nonZero_cases entry.flags).imp_left fun ⟨isNone, isZero⟩ => ⟨isNone, by rw [isZero]; decide⟩
  generalize nonZero entry.port = port
  obtain ⟨isFlags, noFlags⟩ | isFlags := isFlags <;>
    obtain ⟨isIndex, -⟩ | isIndex := nonZero_cases entry.ifindex <;>
    cases port <;>
    simp [*]

theorem parseEndpointResponse_message (header : Vector UInt8 20) (entry : Entry) :
    parseEndpointResponse order (header.toList ++ encodeAll order (entry.message order).attrs) =
      some (parseEndpointAttrs order (encodeAll order (entry.body : Writer order).attrs)) := by
  have headerLength : header.toList.length = 20 := header.length_toList
  have small : (entry.message order).Small 145 := (small_body entry).nest (by decide) (by decide)
  have seen : (entry.message order).seen =
      [(1, encodeAll order (entry.body : Writer order).attrs)] := by
    change [Attribute.masked (1 ||| NLA_F_NESTED, _)] = _
    rw [Attribute.masked_nested (by decide)]
    rfl
  rw [parseEndpointResponse, if_neg (by simp [headerLength]),
    List.drop_left' headerLength, attrIter_payload small, seen]
  rfl

theorem port_asAdded_iff (port : BitVec 16) :
    ((nonZero port).bind fun port =>
        nonZero (readU16 .big (order.toBytes 2 port.toNat))) = nonZero port ↔
      order = .big ∨ ReadsBackwards 2 port.toNat := by
  rcases nonZero_cases port with ⟨isNone, isZero⟩ | isSome
  · rw [isNone, isZero]
    exact iff_of_true rfl (.inr (by decide))
  · have notZero : port ≠ 0 := by
      intro isZero
      rw [isZero] at isSome
      cases isSome
    have bound : ByteOrder.big.ofBytes (order.toBytes 2 port.toNat) < 2 ^ 16 := by
      have bytes := ByteOrder.big.ofBytes_lt (order.toBytes 2 port.toNat)
      rwa [ByteOrder.toBytes_length] at bytes
    have same : readU16 .big (order.toBytes 2 port.toNat) = port ↔
        order = .big ∨ ReadsBackwards 2 port.toNat := by
      rw [← ofBytes_big_toBytes_eq_iff order port.isLt, ← BitVec.toNat_inj,
        readU16, List.take_of_length_le (Nat.le_of_eq (ByteOrder.toBytes_length _ _ _)),
        BitVec.toNat_ofNat, Nat.mod_eq_of_lt bound]
    rw [isSome, Option.bind_some, ← same]
    generalize readU16 .big (order.toBytes 2 port.toNat) = read
    constructor
    · intro isRead
      rcases nonZero_cases read with ⟨isNone, -⟩ | isSome'
      · rw [isNone] at isRead
        cases isRead
      · exact Option.some.inj (isSome'.symm.trans isRead)
    · rintro rfl
      exact isSome

theorem returnsAll_iff (entries : List Entry) : ReturnsAll order entries ↔
      ∀ entry ∈ entries, order = .big ∨ ReadsBackwards 2 entry.port.toNat := by
  have read : ∀ header, getEndpoints order (dumpAddrs order header entries) =
      entries.map fun entry => { entry.asAdded with
        port := (nonZero entry.port).bind fun port =>
          nonZero (readU16 .big (order.toBytes 2 port.toNat)) } := by
    intro header
    rw [getEndpoints, dumpAddrs, List.filterMap_map]
    simp only [Function.comp_def, parseEndpointResponse_message, parseEndpointAttrs_body]
    rw [List.filterMap_eq_map']
  simp only [ReturnsAll, read, forall_const, List.map_inj_left]
  refine forall₂_congr fun entry member => ?_
  rw [← port_asAdded_iff entry.port]
  constructor
  · intro same
    exact congrArg MptcpEndpoint.port same
  · intro same
    rw [same]
    rfl

end Agreement

/-- An endpoint is added as declared exactly when its port survives the byte
order and its interface is given by index or not at all, a request for a
connection never means what was declared, and endpoints are read as they were
added exactly when their ports survive. -/
theorem means_declared_iff (order : ByteOrder) (familyId : BitVec 16)
    (resolve : String → Option IfIndex) :
    (∀ call, ActsAsDeclared order familyId resolve call ↔ call.Sound order) ∧
      ∀ entries, ReturnsAll order entries ↔ ∀ entry ∈ entries,
          order = .big ∨ ReadsBackwards 2 entry.port.toNat := by
  refine ⟨fun call => ?_, returnsAll_iff⟩
  cases call with
  | addEndpoint address setters => exact actsAsDeclared_addEndpoint familyId resolve address setters
  | _ => exact iff_of_false (not_actsAsDeclared familyId resolve trivial) id

/-- An endpoint with a port is not added with that port on a little-endian
host. -/
theorem port8080_addedSwapped : ¬ ActsAsDeclared .little 30 (fun _ => none)
      (.addEndpoint (.v4 0xC0000201) [.port 8080]) := by
  rw [actsAsDeclared_addEndpoint]
  rintro ⟨little | backwards, -⟩
  · cases little
  · revert backwards
    decide +kernel

end Nlink.Mptcp
