import Nlink.Foundation.Keyed

namespace Nlink.Network

/-!
# Network configuration

A configuration declares links, addresses, routes and qdiscs; the kernel
reports its own as messages.  Of a link type the part is kept that names other
links, and of a qdisc type its kind and the options that it renders to.
-/

/-- `std::net::IpAddr`. -/
inductive IpAddr where
  | v4 (bits : BitVec 32)
  | v6 (bits : BitVec 128)
  deriving DecidableEq

def IpAddr.V4_UNSPECIFIED : IpAddr := .v4 0
def IpAddr.V6_UNSPECIFIED : IpAddr := .v6 0

/-!
## What a configuration declares
-/

inductive DeclaredLinkType where
  | dummy
  | veth (peer : String)
  | bridge
  | vlan (parent : String)
  | vxlan (underlayDev : Option String)
  | macvlan (parent : String)
  | bond
  | ifb
  | vrf
  | ovpn
  | netkit (peer : String)
  /-- Exists already and is never created. -/
  | physical
  deriving DecidableEq

inductive LinkState where
  | up
  | down
  | unchanged
  deriving DecidableEq

structure DeclaredLink where
  name : String
  linkType : DeclaredLinkType
  state : LinkState
  mtu : Option Nat
  master : Option String
  address : Option (BitVec 48)
  deriving DecidableEq

structure DeclaredAddress where
  dev : String
  address : IpAddr
  prefixLen : Nat
  deriving DecidableEq

inductive DeclaredRouteType where
  | unicast
  | blackhole
  | unreachable
  | prohibit
  deriving DecidableEq

structure DeclaredRoute where
  destination : IpAddr
  prefixLen : Nat
  gateway : Option IpAddr
  dev : Option String
  metric : Option Nat
  table : Option Nat
  routeType : DeclaredRouteType
  deriving DecidableEq

inductive QdiscParent where
  | root
  | ingress

/-- A qdisc type: its kind, and what `declared_options_bytes` renders. -/
structure DeclaredQdiscType where
  kind : String
  optionsBytes : List UInt8

structure DeclaredQdisc where
  dev : String
  parent : QdiscParent
  qdiscType : DeclaredQdiscType

structure NetworkConfig where
  links : List DeclaredLink
  addresses : List DeclaredAddress
  routes : List DeclaredRoute
  qdiscs : List DeclaredQdisc

/-!
## What the kernel reports
-/

structure LinkMessage where
  ifindex : Nat
  name : Option String
  /-- The flag `IFF_UP`. -/
  isUp : Bool
  mtu : Option Nat
  master : Option Nat

inductive Scope where
  | universe
  | site
  | link
  | host
  | nowhere
  deriving DecidableEq

/-- A scope that has no name counts as `Universe`. -/
def Scope.ofU8 : Nat → Scope
  | 0 => .universe
  | 200 => .site
  | 253 => .link
  | 254 => .host
  | 255 => .nowhere
  | _ => .universe

structure AddressMessage where
  ifindex : Nat
  ifaScope : Nat
  prefixLen : Nat
  address : Option IpAddr

def AddressMessage.scope (message : AddressMessage) : Scope :=
  .ofU8 message.ifaScope

inductive RouteType where
  | unspec
  | unicast
  | local
  | broadcast
  | anycast
  | multicast
  | blackhole
  | unreachable
  | prohibit
  | throw
  | nat
  | externalResolver

def RouteType.ofU8 : Nat → RouteType
  | 0 => .unspec
  | 1 => .unicast
  | 2 => .local
  | 3 => .broadcast
  | 4 => .anycast
  | 5 => .multicast
  | 6 => .blackhole
  | 7 => .unreachable
  | 8 => .prohibit
  | 9 => .throw
  | 10 => .nat
  | 11 => .externalResolver
  | _ => .unspec

inductive RouteProtocol where
  | unspec
  | redirect
  | kernel
  | boot
  | static
  | gated
  | ra
  | mrt
  | zebra
  | bird
  | dnrouted
  | xorp
  | ntk
  | dhcp
  | mrouted
  | keepalived
  | babel
  | bgp
  | isis
  | ospf
  | rip
  | eigrp
  deriving DecidableEq

def RouteProtocol.ofU8 : Nat → RouteProtocol
  | 0 => .unspec
  | 1 => .redirect
  | 2 => .kernel
  | 3 => .boot
  | 4 => .static
  | 8 => .gated
  | 9 => .ra
  | 10 => .mrt
  | 11 => .zebra
  | 12 => .bird
  | 13 => .dnrouted
  | 14 => .xorp
  | 15 => .ntk
  | 16 => .dhcp
  | 17 => .mrouted
  | 18 => .keepalived
  | 42 => .babel
  | 186 => .bgp
  | 187 => .isis
  | 188 => .ospf
  | 189 => .rip
  | 192 => .eigrp
  | _ => .unspec

def AF_INET : Nat := 2

structure RouteMessage where
  rtmFamily : Nat
  rtmDstLen : Nat
  rtmTable : Nat
  rtmProtocol : Nat
  rtmType : Nat
  destination : Option IpAddr
  oif : Option Nat
  gateway : Option IpAddr
  priority : Option Nat
  table : Option Nat

namespace RouteMessage

def routeType (message : RouteMessage) : RouteType :=
  .ofU8 message.rtmType

def protocol (message : RouteMessage) : RouteProtocol :=
  .ofU8 message.rtmProtocol

/-- The attribute has room for the tables that the header has not. -/
def tableId (message : RouteMessage) : Nat :=
  message.table.getD message.rtmTable

def isIpv4 (message : RouteMessage) : Bool :=
  message.rtmFamily == AF_INET

end RouteMessage

def tcHandle.ROOT : Nat := 0xFFFFFFFF
def tcHandle.INGRESS : Nat := 0xFFFFFFF1

structure TcMessage where
  ifindex : Nat
  tcmParent : Nat
  kind : Option String
  rawOptions : Option (List UInt8)

namespace TcMessage

def isRoot (message : TcMessage) : Bool :=
  message.tcmParent == tcHandle.ROOT

def isIngress (message : TcMessage) : Bool :=
  message.tcmParent == tcHandle.INGRESS || message.kind == some "ingress"

end TcMessage

open Foundation List

/-!
## Comparing a configuration with the kernel

`compute_diff` fetches what the kernel has and lists what is to be added,
modified and, when purging, removed.
-/

structure LinkChanges where
  setUp : Bool
  setDown : Bool
  setMtu : Option Nat
  setMaster : Option String
  unsetMaster : Bool

namespace LinkChanges

def isEmpty (changes : LinkChanges) : Bool :=
  !changes.setUp && !changes.setDown && changes.setMtu.isNone &&
    changes.setMaster.isNone && !changes.unsetMaster

end LinkChanges

structure ConfigDiff where
  linksToAdd : List DeclaredLink
  linksToModify : List (String × LinkChanges)
  addressesToAdd : List DeclaredAddress
  routesToAdd : List DeclaredRoute
  qdiscsToAdd : List DeclaredQdisc
  qdiscsToReplace : List DeclaredQdisc
  addressesToRemove : List DeclaredAddress
  routesToRemove : List DeclaredRoute

/-- What the kernel has, as it is fetched. -/
structure KernelState where
  links : List LinkMessage
  addresses : List AddressMessage
  routes : List RouteMessage
  qdiscs : List TcMessage

/-- The links by name; of links with one name the last counts. -/
def linkByName (links : List LinkMessage) : HashMap String LinkMessage :=
  .collect (links.filterMap fun link => link.name.map fun name => (name, link))

def ifindexToName (links : List LinkMessage) : HashMap Nat String :=
  .collect (links.filterMap fun link => link.name.map fun name => (link.ifindex, name))

/-!
## Links
-/

def computeLinkChanges (declared : DeclaredLink) (existing : LinkMessage)
    (ifindexToName : HashMap Nat String) : LinkChanges :=
  let existingMasterName := existing.master.bind ifindexToName.lookup
  { setUp := declared.state == .up && !existing.isUp
    setDown := declared.state == .down && existing.isUp
    setMtu :=
      match declared.mtu with
      | some desired => if existing.mtu ≠ some desired then some desired else none
      | none => none
    setMaster :=
      match declared.master, existingMasterName with
      | some want, some have_ => if want = have_ then none else some want
      | some want, none => some want
      | none, _ => none
    unsetMaster :=
      match declared.master, existingMasterName with
      | none, some _ => true
      | _, _ => false }

/-- The links to add and those to modify. -/
def diffLinks (config : NetworkConfig) (current : HashMap String LinkMessage)
    (ifindexToName : HashMap Nat String) :
    List DeclaredLink × List (String × LinkChanges) :=
  (config.links.filter fun declared =>
      (current.lookup declared.name).isNone && declared.linkType != .physical,
    config.links.filterMap fun declared =>
      match current.lookup declared.name with
      | some existing =>
          let changes := computeLinkChanges declared existing ifindexToName
          if changes.isEmpty then none else some (declared.name, changes)
      | none => none)

/-- `deps_of`: the links of the batch that a link refers to. -/
def depsOf (link : DeclaredLink) (namesInBatch : List String) : List String :=
  ((match link.linkType with
    | .vlan parent => [parent]
    | .macvlan parent => [parent]
    | .vxlan (some dev) => [dev]
    | _ => []) ++ link.master.toList).filter fun dep => dep ∈ namesInBatch

/-- One round over the remaining links: those emitted before and in it, and
those that are not ready.  A link of the round counts for those after it. -/
def emitReady (namesInBatch : List String) : List DeclaredLink → List DeclaredLink →
      List DeclaredLink × List DeclaredLink
  | out, [] => (out, [])
  | out, link :: rest =>
      if (depsOf link namesInBatch).all fun dep =>
          dep ∈ out.map DeclaredLink.name then
        emitReady namesInBatch (out ++ [link]) rest
      else
        let (final, notReady) := emitReady namesInBatch out rest
        (final, link :: notReady)

/-- The rounds, until none is left or a round makes no progress. -/
def emitRounds (namesInBatch : List String) :
    Nat → List DeclaredLink → List DeclaredLink → List DeclaredLink
  | 0, out, remaining => out ++ remaining
  | fuel + 1, out, remaining =>
      if remaining.isEmpty then
        out
      else
        let (next, notReady) := emitReady namesInBatch out remaining
        if notReady.length = remaining.length then
          next ++ notReady
        else
          emitRounds namesInBatch fuel next notReady

/-- `topo_sort_links_to_add`. -/
def topoSortLinksToAdd (links : List DeclaredLink) : List DeclaredLink :=
  if links.length < 2 then links else emitRounds (links.map DeclaredLink.name) links.length [] links

/-!
## Addresses
-/

/-- What identifies an address: its device, itself and its length. -/
abbrev AddressKey := String × IpAddr × Nat

def DeclaredAddress.key (declared : DeclaredAddress) : AddressKey :=
  (declared.dev, declared.address, declared.prefixLen)

/-- The key of an address that the kernel has, if it has one. -/
def AddressMessage.key? (ifindexToName : HashMap Nat String) (message : AddressMessage) :
    Option AddressKey := do
  let name ← ifindexToName.lookup message.ifindex
  let address ← message.address
  return (name, address, message.prefixLen)

def addressesToAdd (config : NetworkConfig) (current : List AddressMessage)
    (ifindexToName : HashMap Nat String) : List DeclaredAddress :=
  config.addresses.filter fun declared =>
    declared.key ∉ current.filterMap (AddressMessage.key? ifindexToName)

/-- The purge of `diff_addresses`. -/
def addressesToRemove (config : NetworkConfig) (current : List AddressMessage)
    (ifindexToName : HashMap Nat String) : List DeclaredAddress :=
  let desired := config.addresses.map DeclaredAddress.key
  let managedDevs := config.addresses.map DeclaredAddress.dev
  current.filterMap fun message =>
    if message.scope ≠ .universe then
      none
    else
      match ifindexToName.lookup message.ifindex with
      | none => none
      | some name =>
          if name ∉ managedDevs then
            none
          else
            match message.address with
            | none => none
            | some address =>
                if (name, address, message.prefixLen) ∈ desired then
                  none
                else
                  some
                    { dev := name
                      address := address
                      prefixLen := message.prefixLen }

/-- `diff_addresses`: the addresses to add and those to remove. -/
def diffAddresses (config : NetworkConfig) (current : List AddressMessage)
    (ifindexToName : HashMap Nat String) (purge : Bool) :
    List DeclaredAddress × List DeclaredAddress :=
  (addressesToAdd config current ifindexToName,
    if purge then addressesToRemove config current ifindexToName else [])

/-!
## Routes
-/

/-- What identifies a route: its destination, its length and its table. -/
abbrev RouteKey := IpAddr × Nat × Nat

def MAIN_TABLE : Nat := 254

def DeclaredRoute.key (declared : DeclaredRoute) : RouteKey :=
  (declared.destination, declared.prefixLen, declared.table.getD MAIN_TABLE)

/-- A default route has no destination attribute. -/
def RouteMessage.dst (message : RouteMessage) : IpAddr :=
  message.destination.getD
    (if message.isIpv4 then
      IpAddr.V4_UNSPECIFIED
    else
      IpAddr.V6_UNSPECIFIED)

def RouteMessage.key (message : RouteMessage) : RouteKey :=
  (message.dst, message.rtmDstLen, message.tableId)

/-- The type that a configuration can declare, if there is one. -/
def DeclaredRouteType.ofRouteType? : RouteType → Option DeclaredRouteType
  | .unicast => some .unicast
  | .blackhole => some .blackhole
  | .unreachable => some .unreachable
  | .prohibit => some .prohibit
  | _ => none

/-- The inverse of `ifindex_to_name`; of indexes with one name the last in the
order of iteration counts. -/
def nameToIfindex (ifindexToName : HashMap Nat String) : HashMap String Nat :=
  .collect (ifindexToName.pairs.map Prod.swap)

/-- `current_by_key`: the routes with a key that are of a declarable type. -/
def currentByKey (current : List RouteMessage) (key : RouteKey) : List RouteMessage :=
  (current.filter fun route =>
    (DeclaredRouteType.ofRouteType? route.routeType).isSome).filter fun route => route.key = key

def gatewayMatch (declared : DeclaredRoute) (route : RouteMessage) : Bool :=
  match declared.gateway, route.gateway with
  | none, none => true
  | some wanted, some gateway => wanted == gateway
  | _, _ => false

def devMatch (declaredOif : Option Nat) (route : RouteMessage) : Bool :=
  match declaredOif, route.oif with
  | none, none => true
  | some wanted, some oif => wanted == oif
  -- The kernel selects the interface from the gateway.
  | none, some _ => true
  | some _, none => false

def metricMatch (declared : DeclaredRoute) (route : RouteMessage) : Bool :=
  declared.metric.getD 0 == route.priority.getD 0

/-- Whether some kernel route counts as the declared one. -/
def matchesExisting (current : List RouteMessage) (ifindexToName : HashMap Nat String)
    (declared : DeclaredRoute) : Bool :=
  let declaredOif := declared.dev.bind (nameToIfindex ifindexToName).lookup
  (currentByKey current declared.key).any fun route =>
    gatewayMatch declared route && devMatch declaredOif route && metricMatch declared route

def routesToAdd (config : NetworkConfig) (current : List RouteMessage)
    (ifindexToName : HashMap Nat String) : List DeclaredRoute :=
  config.routes.filter fun declared => !matchesExisting current ifindexToName declared

/-- The purge of `diff_routes`. -/
def routesToRemove (config : NetworkConfig) (current : List RouteMessage)
    (ifindexToName : HashMap Nat String) : List DeclaredRoute :=
  let desiredKeys := config.routes.map DeclaredRoute.key
  current.filterMap fun route =>
    if route.tableId ≠ MAIN_TABLE then
      none
    else if route.protocol ≠ .static ∧ route.protocol ≠ .boot then
      none
    else
      match DeclaredRouteType.ofRouteType? route.routeType with
      | none => none
      | some routeType =>
          if route.key ∈ desiredKeys then
            none
          else
            some
              { destination := route.dst
                prefixLen := route.rtmDstLen
                gateway := route.gateway
                dev := route.oif.bind ifindexToName.lookup
                metric := route.priority
                table := some route.tableId
                routeType := routeType }

/-- `diff_routes`: the routes to add and those to remove. -/
def diffRoutes (config : NetworkConfig) (current : List RouteMessage)
    (ifindexToName : HashMap Nat String) (purge : Bool) :
    List DeclaredRoute × List DeclaredRoute :=
  (routesToAdd config current ifindexToName,
    if purge then routesToRemove config current ifindexToName else [])

/-!
## Qdiscs
-/

/-- The qdiscs at a position by device; the last of a device counts.  A qdisc
that is at the root is no ingress qdisc. -/
def currentQdiscs (current : List TcMessage) (ifindexToName : HashMap Nat String)
    (parent : QdiscParent) : HashMap String TcMessage :=
  .collect
    (current.filterMap fun qdisc =>
      (ifindexToName.lookup qdisc.ifindex).bind fun name =>
        match parent with
        | .root => if qdisc.isRoot then some (name, qdisc) else none
        | .ingress => if !qdisc.isRoot && qdisc.isIngress then some (name, qdisc) else none)

/-- Whether a qdisc at the declared position differs from the declared one. -/
def qdiscDiffers (declared : DeclaredQdisc) (existing : TcMessage) : Bool :=
  existing.kind.getD "" != declared.qdiscType.kind ||
    declared.qdiscType.optionsBytes != existing.rawOptions.getD []

/-- `diff_qdiscs`: the qdiscs to add and those to replace. -/
def diffQdiscs (config : NetworkConfig) (current : List TcMessage)
    (ifindexToName : HashMap Nat String) :
    List DeclaredQdisc × List DeclaredQdisc :=
  let existing := fun declared : DeclaredQdisc =>
    (currentQdiscs current ifindexToName declared.parent).lookup declared.dev
  (config.qdiscs.filter fun declared => (existing declared).isNone,
    config.qdiscs.filter fun declared =>
      match existing declared with
      | some qdisc => qdiscDiffers declared qdisc
      | none => false)

/-!
## The whole difference
-/

structure DiffOptions where
  purge : Bool

/-- `compute_diff_with_options`, for what the kernel has. -/
def computeDiffWithOptions (config : NetworkConfig) (kernel : KernelState) (opts : DiffOptions) :
    ConfigDiff :=
  let names := ifindexToName kernel.links
  let (linksToAdd, linksToModify) := diffLinks config (linkByName kernel.links) names
  let (addressesToAdd, addressesToRemove) := diffAddresses config kernel.addresses names opts.purge
  let (routesToAdd, routesToRemove) := diffRoutes config kernel.routes names opts.purge
  let (qdiscsToAdd, qdiscsToReplace) := diffQdiscs config kernel.qdiscs names
  { linksToAdd := topoSortLinksToAdd linksToAdd
    linksToModify := linksToModify
    addressesToAdd := addressesToAdd
    routesToAdd := routesToAdd
    qdiscsToAdd := qdiscsToAdd
    qdiscsToReplace := qdiscsToReplace
    addressesToRemove := addressesToRemove
    routesToRemove := routesToRemove }

/-!
## Purge

With purge a difference also removes what the configuration does not declare,
among the addresses and the routes that it manages.  What it may remove is said
in the numbers of the kernel.  A scope that has no name is taken for the global
one, and an address of such a scope is removed too.
-/

/-- An address that is not declared, on a device for which one is declared. -/
structure UndeclaredAddress (config : NetworkConfig) (names : HashMap Nat String)
    (message : AddressMessage) (removed : DeclaredAddress) : Prop where
  sameKey : message.key? names = some removed.key
  managed : ∃ declared ∈ config.addresses, declared.dev = removed.dev
  undeclared : ∀ declared ∈ config.addresses, declared.key ≠ removed.key

def RT_SCOPE_UNIVERSE : Nat := 0

/-- An address that purge is to remove: an undeclared one of the global scope. -/
structure RemovableAddress (config : NetworkConfig) (names : HashMap Nat String)
    (message : AddressMessage) (removed : DeclaredAddress) : Prop
    extends UndeclaredAddress config names message removed where
  global : message.ifaScope = RT_SCOPE_UNIVERSE

def RTPROT_BOOT : Nat := 3
def RTPROT_STATIC : Nat := 4

/-- The number of a route type that can be declared. -/
def DeclaredRouteType.rtmType : DeclaredRouteType → Nat
  | .unicast => 1
  | .blackhole => 6
  | .unreachable => 7
  | .prohibit => 8

/-- A route that purge is to remove: a static or boot route of the main table,
of a type that can be declared, and not declared. -/
structure RemovableRoute (config : NetworkConfig) (route : RouteMessage) : Prop where
  main : route.tableId = MAIN_TABLE
  protocol : route.rtmProtocol = RTPROT_STATIC ∨ route.rtmProtocol = RTPROT_BOOT
  routeType : ∃ routeType : DeclaredRouteType, route.rtmType = routeType.rtmType
  undeclared : ∀ declared ∈ config.routes, declared.key ≠ route.key

/-- The removal of a route says what the kernel reported of it. -/
structure Describes (names : HashMap Nat String) (route : RouteMessage)
    (removed : DeclaredRoute) : Prop where
  destination : removed.destination = route.dst
  prefixLen : removed.prefixLen = route.rtmDstLen
  gateway : removed.gateway = route.gateway
  dev : removed.dev = route.oif.bind names.lookup
  metric : removed.metric = route.priority
  table : removed.table = some route.tableId
  routeType : route.rtmType = removed.routeType.rtmType

variable {names : HashMap Nat String}

theorem key?_eq_some_iff {message : AddressMessage} {key : AddressKey} :
    message.key? names = some key ↔ names.lookup message.ifindex = some key.1 ∧
        message.address = some key.2.1 ∧ message.prefixLen = key.2.2 := by
  obtain ⟨name, address, prefixLen⟩ := key
  rw [AddressMessage.key?]
  cases names.lookup message.ifindex with
  | none => simp
  | some other =>
      cases message.address with
      | none => simp
      | some otherAddress => simp

variable {config : NetworkConfig} {current : List AddressMessage}

theorem mem_addressesToRemove_iff {removed : DeclaredAddress} :
    removed ∈ addressesToRemove config current names ↔ ∃ message ∈ current,
        message.scope = .universe ∧ UndeclaredAddress config names message removed := by
  rw [addressesToRemove, mem_filterMap]
  refine exists_congr fun message => and_congr_right fun _ => ?_
  constructor
  · intro isRemoved
    split at isRemoved
    case isTrue => cases isRemoved
    case isFalse global =>
      split at isRemoved
      case h_1 => cases isRemoved
      case h_2 name found =>
        split at isRemoved
        case isTrue => cases isRemoved
        case isFalse managed =>
          split at isRemoved
          case h_1 => cases isRemoved
          case h_2 address isAddress =>
            split at isRemoved
            case isTrue => cases isRemoved
            case isFalse undeclared =>
              cases isRemoved
              refine ⟨not_not.mp global, key?_eq_some_iff.mpr ⟨found, isAddress, rfl⟩, ?_, ?_⟩
              · exact mem_map.mp (not_not.mp managed)
              · intro declared isDeclared sameKey
                exact undeclared (mem_map.mpr ⟨declared, isDeclared, sameKey⟩)
  · rintro ⟨global, removable⟩
    obtain ⟨found, isAddress, isLength⟩ := key?_eq_some_iff.mp removable.sameKey
    obtain ⟨manager, isManager, sameDev⟩ := removable.managed
    have managed : removed.dev ∈ config.addresses.map DeclaredAddress.dev :=
      mem_map.mpr ⟨manager, isManager, sameDev⟩
    have undeclared : removed.key ∉ config.addresses.map DeclaredAddress.key := by
      intro isDeclared
      obtain ⟨declared, member, sameKey⟩ := mem_map.mp isDeclared
      exact removable.undeclared declared member sameKey
    rw [DeclaredAddress.key] at found isAddress isLength undeclared
    simp only [global, found, managed, isAddress, isLength,
      undeclared, ne_eq, not_true_eq_false, if_false]

theorem ofRouteType?_ofU8_iff {number : Nat} {routeType : DeclaredRouteType} :
    DeclaredRouteType.ofRouteType? (.ofU8 number) = some routeType ↔
      number = routeType.rtmType := by
  constructor
  · intro read
    unfold RouteType.ofU8 at read
    split at read <;> cases read <;> rfl
  · rintro rfl
    cases routeType <;> rfl

theorem protocol_iff {route : RouteMessage} :
    route.protocol = .static ∨ route.protocol = .boot ↔
      route.rtmProtocol = RTPROT_STATIC ∨ route.rtmProtocol = RTPROT_BOOT := by
  constructor
  · rw [RouteMessage.protocol]
    unfold RouteProtocol.ofU8
    split <;> simp_all [RTPROT_STATIC, RTPROT_BOOT]
  · rintro (isStatic | isBoot)
    · exact .inl (congrArg RouteProtocol.ofU8 isStatic)
    · exact .inr (congrArg RouteProtocol.ofU8 isBoot)

theorem mem_routesToRemove_iff {current : List RouteMessage} {removed : DeclaredRoute} :
    removed ∈ routesToRemove config current names ↔ ∃ route ∈ current,
        RemovableRoute config route ∧ Describes names route removed := by
  rw [routesToRemove, mem_filterMap]
  refine exists_congr fun route => and_congr_right fun _ => ?_
  constructor
  · intro isRemoved
    split at isRemoved
    case isTrue => cases isRemoved
    case isFalse main =>
      split at isRemoved
      case isTrue => cases isRemoved
      case isFalse protocol =>
        split at isRemoved
        case h_1 => cases isRemoved
        case h_2 routeType isType =>
          split at isRemoved
          case isTrue => cases isRemoved
          case isFalse undeclared =>
            cases isRemoved
            have sameType := ofRouteType?_ofU8_iff.mp isType
            refine ⟨⟨not_not.mp main, protocol_iff.mp ?_, ⟨_, sameType⟩, ?_⟩,
              rfl, rfl, rfl, rfl, rfl, rfl, sameType⟩
            · by_contra other
              exact protocol (not_or.mp other)
            · intro declared isDeclared sameKey
              exact undeclared (mem_map.mpr ⟨declared, isDeclared, sameKey⟩)
  · rintro ⟨removable, describes⟩
    have undeclared : route.key ∉ config.routes.map DeclaredRoute.key := by
      intro isDeclared
      obtain ⟨declared, member, sameKey⟩ := mem_map.mp isDeclared
      exact removable.undeclared declared member sameKey
    have managed : ¬ (route.protocol ≠ .static ∧ route.protocol ≠ .boot) :=
      not_and_or.mpr ((protocol_iff.mpr removable.protocol).imp not_not.mpr not_not.mpr)
    have isType : DeclaredRouteType.ofRouteType? route.routeType = some removed.routeType :=
      ofRouteType?_ofU8_iff.mpr describes.routeType
    rw [if_neg (not_not.mpr removable.main), if_neg managed, isType]
    simp only [undeclared, if_false]
    obtain ⟨destination, prefixLen, gateway, dev, metric, table, _⟩ := describes
    rw [← destination, ← prefixLen, ← gateway, ← dev, ← metric, ← table]

theorem mem_addressesToAdd_iff {added : DeclaredAddress} :
    added ∈ addressesToAdd config current names ↔ added ∈ config.addresses ∧
        ∀ message ∈ current, message.key? names ≠ some added.key := by
  rw [addressesToAdd, mem_filter, decide_eq_true_iff, mem_filterMap]
  simp

theorem Describes.key {route : RouteMessage} {removed : DeclaredRoute}
    (describes : Describes names route removed) : removed.key = route.key := by
  rw [DeclaredRoute.key, describes.destination, describes.prefixLen, describes.table]
  rfl

/-- Purge removes exactly the undeclared objects that it manages. -/
structure PurgeExact (config : NetworkConfig) (kernel : KernelState) : Prop where
  nothingWithout : (computeDiffWithOptions config kernel ⟨false⟩).addressesToRemove = [] ∧
      (computeDiffWithOptions config kernel ⟨false⟩).routesToRemove = []
  addresses : ∀ removed, removed ∈ (computeDiffWithOptions config kernel ⟨true⟩).addressesToRemove ↔
      ∃ message ∈ kernel.addresses,
        RemovableAddress config (ifindexToName kernel.links) message removed
  routes : ∀ removed, removed ∈ (computeDiffWithOptions config kernel ⟨true⟩).routesToRemove ↔
      ∃ route ∈ kernel.routes, RemovableRoute config route ∧
          Describes (ifindexToName kernel.links) route removed
  declaredAddressKept : ∀ declared ∈ config.addresses, ∀ removed ∈
      (computeDiffWithOptions config kernel ⟨true⟩).addressesToRemove,
    declared.key ≠ removed.key
  declaredRouteKept : ∀ declared ∈ config.routes, ∀ removed ∈
      (computeDiffWithOptions config kernel ⟨true⟩).routesToRemove,
    declared.key ≠ removed.key
  addressesDisjoint : ∀ added ∈ (computeDiffWithOptions config kernel ⟨true⟩).addressesToAdd,
      ∀ removed ∈ (computeDiffWithOptions config kernel ⟨true⟩).addressesToRemove,
        added.key ≠ removed.key
  routesDisjoint : ∀ added ∈ (computeDiffWithOptions config kernel ⟨true⟩).routesToAdd, ∀ removed ∈
          (computeDiffWithOptions config kernel ⟨true⟩).routesToRemove,
        added.key ≠ removed.key
  othersSame :
    { computeDiffWithOptions config kernel ⟨true⟩ with
      addressesToRemove := []
      routesToRemove := [] } =
      computeDiffWithOptions config kernel ⟨false⟩

theorem declared_address_kept {declared removed : DeclaredAddress}
    (isDeclared : declared ∈ config.addresses)
    (isRemoved : removed ∈ addressesToRemove config current names) :
    declared.key ≠ removed.key := by
  obtain ⟨message, _, _, removable⟩ := mem_addressesToRemove_iff.mp isRemoved
  exact removable.undeclared declared isDeclared

theorem declared_route_kept {current : List RouteMessage} {declared removed : DeclaredRoute}
    (isDeclared : declared ∈ config.routes)
    (isRemoved : removed ∈ routesToRemove config current names) : declared.key ≠ removed.key := by
  obtain ⟨route, _, removable, describes⟩ := mem_routesToRemove_iff.mp isRemoved
  rw [describes.key]
  exact removable.undeclared declared isDeclared

/-- A scope that has a name. -/
def Scope.Named (number : Nat) : Prop :=
  number ∈ [RT_SCOPE_UNIVERSE, 200, 253, 254, 255]

theorem scope_eq_universe_iff {message : AddressMessage} : message.scope = .universe ↔
      message.ifaScope = RT_SCOPE_UNIVERSE ∨ ¬ Scope.Named message.ifaScope := by
  rw [AddressMessage.scope]
  unfold Scope.ofU8
  split <;> simp_all [Scope.Named, RT_SCOPE_UNIVERSE]

/-- Every undeclared address that has a scope without a name is there in the
global scope too. -/
def UnnamedAreGlobal (config : NetworkConfig) (kernel : KernelState) : Prop :=
  ∀ message ∈ kernel.addresses, ¬ Scope.Named message.ifaScope → ∀ removed,
    UndeclaredAddress config (ifindexToName kernel.links) message removed →
      ∃ other ∈ kernel.addresses, other.ifaScope = RT_SCOPE_UNIVERSE ∧
        other.key? (ifindexToName kernel.links) = some removed.key

/-- Addresses are removed exactly as they are to be where every scope without a
name is beside the global one. -/
theorem addressesToRemove_exact_iff {config : NetworkConfig} {kernel : KernelState} :
    (∀ removed,
        removed ∈ addressesToRemove config kernel.addresses (ifindexToName kernel.links) ↔
          ∃ message ∈ kernel.addresses,
            RemovableAddress config (ifindexToName kernel.links) message removed) ↔
      UnnamedAreGlobal config kernel := by
  simp only [mem_addressesToRemove_iff, scope_eq_universe_iff]
  constructor
  · intro exact message member unnamed removed undeclared
    obtain ⟨other, otherMember, removable⟩ :=
      (exact removed).mp ⟨message, member, .inr unnamed, undeclared⟩
    exact ⟨other, otherMember, removable.global, removable.sameKey⟩
  · intro covered removed
    constructor
    · rintro ⟨message, member, global | unnamed, undeclared⟩
      · exact ⟨message, member, undeclared, global⟩
      · obtain ⟨other, otherMember, global, sameKey⟩ :=
          covered message member unnamed removed undeclared
        exact ⟨other, otherMember, { undeclared with sameKey := sameKey }, global⟩
    · rintro ⟨message, member, removable⟩
      exact ⟨message, member, .inl removable.global, removable.toUndeclaredAddress⟩

/-- Purge removes exactly the undeclared objects that it manages, and changes
nothing else, for every configuration and every kernel state in which no
undeclared address has only a scope without a name. -/
theorem computeDiff_purgeExact_iff (config : NetworkConfig) (kernel : KernelState) :
    PurgeExact config kernel ↔ UnnamedAreGlobal config kernel := by
  refine ⟨fun exact => addressesToRemove_exact_iff.mp exact.addresses, fun covered => ?_⟩
  exact
    { nothingWithout := ⟨rfl, rfl⟩
      addresses := addressesToRemove_exact_iff.mpr covered
      routes := fun _ => mem_routesToRemove_iff
      declaredAddressKept := fun _ isDeclared _ => declared_address_kept isDeclared
      declaredRouteKept := fun _ isDeclared _ => declared_route_kept isDeclared
      addressesDisjoint := fun _ isAdded _ =>
        declared_address_kept (mem_addressesToAdd_iff.mp isAdded).1
      routesDisjoint := fun _ isAdded _ => declared_route_kept (mem_filter.mp isAdded).1
      othersSame := rfl }

/-- A link `eth0`. -/
def eth0 : LinkMessage where
  ifindex := 2
  name := some "eth0"
  isUp := true
  mtu := some 1500
  master := none

/-- A configuration that declares 10.0.0.1/24 on `eth0`. -/
def oneAddress : NetworkConfig where
  links := []
  addresses := [{ dev := "eth0", address := .v4 0x0a000001, prefixLen := 24 }]
  routes := []
  qdiscs := []

/-- The address 10.0.0.2/24 on `eth0`, with a scope. -/
def secondAddress (scope : Nat) : KernelState where
  links := [eth0]
  addresses :=
    [{ ifindex := 2, ifaScope := scope, prefixLen := 24, address := some (.v4 0x0a000002) }]
  routes := []
  qdiscs := []

/-- An undeclared address of the scope 100, which has no name, is removed. -/
theorem computeDiff_purges_unnamed :
    (computeDiffWithOptions oneAddress (secondAddress 100) ⟨true⟩).addressesToRemove =
        [{ dev := "eth0", address := .v4 0x0a000002, prefixLen := 24 }] ∧
      ¬ PurgeExact oneAddress (secondAddress 100) := by
  refine ⟨by decide, fun exact => ?_⟩
  obtain ⟨message, member, removable⟩ :=
    (exact.addresses { dev := "eth0", address := .v4 0x0a000002, prefixLen := 24 }).mp (by decide)
  obtain rfl := mem_singleton.mp member
  exact absurd removable.global (by decide)

/-!
## Route reconcile

A declared route for which nothing is emitted agrees with a kernel route in
what `diff_routes` compares.  It compares no route types, and a declared device
that no link has the name of is compared as if none were declared.
-/

def DistinctNames (links : List LinkMessage) : Prop :=
  (links.filterMap LinkMessage.name).Nodup

variable {links : List LinkMessage} {name : String}

theorem exists_link_of_lookup {ifindex : Nat}
    (found : (ifindexToName links).lookup ifindex = some name) :
    ∃ link ∈ links, link.ifindex = ifindex ∧ link.name = some name := by
  have member := HashMap.mem_of_lookup_collect found
  obtain ⟨link, isLink, isPair⟩ := mem_filterMap.mp member
  obtain ⟨_, isName, same⟩ := Option.map_eq_some_iff.mp isPair
  cases same
  exact ⟨link, isLink, rfl, isName⟩

theorem DistinctNames.eq_of_name (distinct : DistinctNames links) {first second : LinkMessage}
    (isFirst : first ∈ links) (isSecond : second ∈ links) (firstName : first.name = some name)
    (secondName : second.name = some name) : first = second := by
  induction links with
  | nil => cases isFirst
  | cons link rest ih =>
      have notLater : ∀ other ∈ rest, link.name = some name → other.name ≠ some name := by
        intro other member isName sameName
        rw [DistinctNames, filterMap_cons_some isName, nodup_cons] at distinct
        exact distinct.1 (mem_filterMap.mpr ⟨other, member, sameName⟩)
      have restDistinct : DistinctNames rest :=
        distinct.sublist ((sublist_cons_self link rest).filterMap _)
      rcases mem_cons.mp isFirst with rfl | firstLater
      · rcases mem_cons.mp isSecond with rfl | secondLater
        · rfl
        · exact absurd secondName (notLater second secondLater firstName)
      · rcases mem_cons.mp isSecond with rfl | secondLater
        · exact absurd firstName (notLater first firstLater secondName)
        · exact ih restDistinct firstLater secondLater

theorem DistinctNames.eq_of_lookup (distinct : DistinctNames links) {first second : Nat}
    (firstFound : (ifindexToName links).lookup first = some name)
    (secondFound : (ifindexToName links).lookup second = some name) : first = second := by
  obtain ⟨firstLink, isFirst, firstIndex, firstName⟩ := exists_link_of_lookup firstFound
  obtain ⟨secondLink, isSecond, secondIndex, secondName⟩ := exists_link_of_lookup secondFound
  rw [← firstIndex, ← secondIndex, distinct.eq_of_name isFirst isSecond firstName secondName]

section

variable {names : HashMap Nat String} {name : String} {ifindex : Nat}

theorem lookup_of_nameToIfindex (found : (nameToIfindex names).lookup name = some ifindex) :
    names.lookup ifindex = some name := by
  have member := HashMap.mem_of_lookup_collect found
  obtain ⟨⟨_, _⟩, isPair, same⟩ := mem_map.mp member
  cases same
  exact HashMap.mem_pairs_iff.mp isPair

theorem exists_nameToIfindex (found : names.lookup ifindex = some name) :
    ∃ other, (nameToIfindex names).lookup name = some other := by
  have member : (name, ifindex) ∈ names.pairs.map Prod.swap :=
    mem_map.mpr ⟨_, HashMap.mem_pairs_iff.mpr found, rfl⟩
  exact HashMap.exists_lookup_collect member

end

theorem DistinctNames.nameToIfindex_eq (distinct : DistinctNames links) {ifindex : Nat}
    (found : (ifindexToName links).lookup ifindex = some name) :
    (nameToIfindex (ifindexToName links)).lookup name = some ifindex := by
  obtain ⟨other, isOther⟩ := exists_nameToIfindex found
  rw [isOther, distinct.eq_of_lookup (lookup_of_nameToIfindex isOther) found]

def NamesLink (names : HashMap Nat String) (dev : String) : Prop :=
  ∃ ifindex, names.lookup ifindex = some dev

/-- A kernel route is the declared one. -/
structure Implements (names : HashMap Nat String) (declared : DeclaredRoute)
    (route : RouteMessage) : Prop where
  key : route.key = declared.key
  gateway : route.gateway = declared.gateway
  metric : route.priority.getD 0 = declared.metric.getD 0
  routeType : DeclaredRouteType.ofRouteType? route.routeType = some declared.routeType
  dev : ∀ dev, declared.dev = some dev → ∃ oif, route.oif = some oif ∧ names.lookup oif = some dev

/-- The kernel has every declared route for which nothing is emitted. -/
def RoutesSound (config : NetworkConfig) (current : List RouteMessage)
    (names : HashMap Nat String) (purge : Bool) : Prop :=
  ∀ declared ∈ config.routes, declared ∉ (diffRoutes config current names purge).1 →
      ∃ route ∈ current, Implements names declared route

/-- A kernel route agrees with the declared one in what `diff_routes`
compares. -/
structure Agrees (names : HashMap Nat String) (declared : DeclaredRoute)
    (route : RouteMessage) : Prop where
  key : route.key = declared.key
  declarable : (DeclaredRouteType.ofRouteType? route.routeType).isSome = true
  gateway : gatewayMatch declared route = true
  dev : devMatch (declared.dev.bind (nameToIfindex names).lookup) route = true
  metric : metricMatch declared route = true

variable {names : HashMap Nat String}

theorem matchesExisting_iff {current : List RouteMessage} {declared : DeclaredRoute} :
    matchesExisting current names declared = true ↔
      ∃ route ∈ current, Agrees names declared route := by
  rw [matchesExisting, any_eq_true]
  constructor
  · rintro ⟨route, member, agrees⟩
    obtain ⟨isDeclarable, sameKey⟩ := mem_filter.mp member
    obtain ⟨isCurrent, declarable⟩ := mem_filter.mp isDeclarable
    rw [Bool.and_eq_true, Bool.and_eq_true] at agrees
    exact ⟨route, isCurrent, of_decide_eq_true sameKey, declarable,
      agrees.1.1, agrees.1.2, agrees.2⟩
  · rintro ⟨route, isCurrent, agrees⟩
    refine ⟨route, ?_, ?_⟩
    · exact mem_filter.mpr
        ⟨mem_filter.mpr ⟨isCurrent, agrees.declarable⟩, decide_eq_true agrees.key⟩
    · rw [agrees.gateway, agrees.dev, agrees.metric]
      rfl

variable {declared : DeclaredRoute}

variable {route : RouteMessage}

theorem gatewayMatch_iff : gatewayMatch declared route = true ↔
      route.gateway = declared.gateway := by
  unfold gatewayMatch
  cases declared.gateway with
  | none => cases route.gateway <;> simp
  | some wanted =>
      cases route.gateway with
      | none => simp
      | some gateway => rw [beq_iff_eq, Option.some.injEq, eq_comm]

theorem metricMatch_iff : metricMatch declared route = true ↔
      route.priority.getD 0 = declared.metric.getD 0 := by
  rw [metricMatch, beq_iff_eq, eq_comm]

theorem devMatch_some_iff {wanted : Nat} :
    devMatch (some wanted) route = true ↔ route.oif = some wanted := by
  unfold devMatch
  cases route.oif with
  | none => simp
  | some oif => rw [beq_iff_eq, Option.some.injEq, eq_comm]

theorem devMatch_none (route : RouteMessage) : devMatch none route = true := by
  unfold devMatch
  cases route.oif <;> rfl

theorem Agrees.implements (agrees : Agrees names declared route)
    (known : ∀ dev, declared.dev = some dev → NamesLink names dev)
    (sameType : DeclaredRouteType.ofRouteType? route.routeType = some declared.routeType) :
    Implements names declared route where
  key := agrees.key
  gateway := gatewayMatch_iff.mp agrees.gateway
  metric := metricMatch_iff.mp agrees.metric
  routeType := sameType
  dev := by
    intro dev isDev
    obtain ⟨ifindex, found⟩ := known dev isDev
    obtain ⟨oif, resolved⟩ := exists_nameToIfindex found
    have sameDev := agrees.dev
    rw [isDev, Option.bind_some, resolved, devMatch_some_iff] at sameDev
    exact ⟨oif, sameDev, lookup_of_nameToIfindex resolved⟩

theorem Implements.agrees (distinct : DistinctNames links)
    (implements : Implements (ifindexToName links) declared route) :
    Agrees (ifindexToName links) declared route where
  key := implements.key
  declarable := by
    rw [implements.routeType]
    rfl
  gateway := gatewayMatch_iff.mpr implements.gateway
  metric := metricMatch_iff.mpr implements.metric
  dev := by
    cases isDev : declared.dev with
    | none => exact devMatch_none route
    | some dev =>
        obtain ⟨oif, isOif, found⟩ := implements.dev dev isDev
        rw [Option.bind_some, distinct.nameToIfindex_eq found, devMatch_some_iff]
        exact isOif

theorem not_mem_routesToAdd_iff {config : NetworkConfig} {current : List RouteMessage}
    {purge : Bool} (isDeclared : declared ∈ config.routes) :
    declared ∉ (diffRoutes config current names purge).1 ↔
      ∃ route ∈ current, Agrees names declared route := by
  rw [← matchesExisting_iff, diffRoutes, routesToAdd, mem_filter]
  simp [isDeclared]

/-- Route reconcile is sound if and only if, for every declared route with
which some kernel route agrees, a declared device is the name of a link and
some kernel route that agrees has the declared type. -/
theorem diffRoutes_sound_iff (config : NetworkConfig) (links : List LinkMessage)
    (current : List RouteMessage) (purge : Bool) (distinct : DistinctNames links) :
    RoutesSound config current (ifindexToName links) purge ↔ ∀ declared ∈ config.routes,
        (∃ route ∈ current, Agrees (ifindexToName links) declared route) →
          (∀ dev, declared.dev = some dev → NamesLink (ifindexToName links) dev) ∧
            ∃ route ∈ current, Agrees (ifindexToName links) declared route ∧
              DeclaredRouteType.ofRouteType? route.routeType = some declared.routeType := by
  constructor
  · intro sound declared isDeclared agreeing
    obtain ⟨route, isCurrent, implements⟩ :=
      sound declared isDeclared ((not_mem_routesToAdd_iff isDeclared).mpr agreeing)
    refine ⟨?_, route, isCurrent, implements.agrees distinct, implements.routeType⟩
    intro dev isDev
    obtain ⟨oif, _, found⟩ := implements.dev dev isDev
    exact ⟨oif, found⟩
  · intro condition declared isDeclared notEmitted
    obtain ⟨known, route, isCurrent, agrees, sameType⟩ :=
      condition declared isDeclared ((not_mem_routesToAdd_iff isDeclared).mp notEmitted)
    exact ⟨route, isCurrent, agrees.implements known sameType⟩

/-- The route 10.0.0.0/8 on `eth0`. -/
def tenOnEth0 : RouteMessage where
  rtmFamily := AF_INET
  rtmDstLen := 8
  rtmTable := 254
  rtmProtocol := 4
  rtmType := 1
  destination := some (.v4 0x0a000000)
  oif := some 2
  gateway := none
  priority := none
  table := none

/-- A declaration of 10.0.0.0/8. -/
def declaredTen (dev : Option String) (routeType : DeclaredRouteType) : DeclaredRoute where
  destination := .v4 0x0a000000
  prefixLen := 8
  gateway := none
  dev := dev
  metric := none
  table := none
  routeType := routeType

def oneRoute (declared : DeclaredRoute) : NetworkConfig where
  links := []
  addresses := []
  routes := [declared]
  qdiscs := []

/-- A unicast route that the kernel has. -/
theorem diffRoutes_sound_iff_unicast :
    RoutesSound (oneRoute (declaredTen (some "eth0") .unicast)) [tenOnEth0]
      (ifindexToName [eth0]) false := by
  refine (diffRoutes_sound_iff _ [eth0] _ false (nodup_singleton "eth0")).mpr ?_
  intro declared isDeclared agreeing
  cases mem_singleton.mp isDeclared
  obtain ⟨route, isCurrent, agrees⟩ := agreeing
  cases mem_singleton.mp isCurrent
  refine ⟨?_, tenOnEth0, mem_singleton_self _, agrees, rfl⟩
  rintro dev ⟨⟩
  exact ⟨2, rfl⟩

/-- Nothing is emitted for a declared blackhole route where the kernel has a
unicast route, nor for a route on a device that does not exist where the kernel
has it on another. -/
theorem diffRoutes_misses :
    (diffRoutes (oneRoute (declaredTen none .blackhole)) [tenOnEth0]
        (ifindexToName [eth0]) false).1 = [] ∧
      ¬ RoutesSound (oneRoute (declaredTen none .blackhole)) [tenOnEth0]
        (ifindexToName [eth0]) false ∧
      (diffRoutes (oneRoute (declaredTen (some "eth9") .unicast)) [tenOnEth0]
        (ifindexToName [eth0]) false).1 = [] ∧
      ¬ RoutesSound (oneRoute (declaredTen (some "eth9") .unicast))
        [tenOnEth0] (ifindexToName [eth0]) false := by
  refine ⟨by decide, ?_, by decide, ?_⟩
  · intro sound
    obtain ⟨route, isCurrent, implements⟩ := sound _ (mem_singleton_self _) (by decide)
    cases mem_singleton.mp isCurrent
    have sameType := implements.routeType
    cases sameType
  · intro sound
    obtain ⟨route, isCurrent, implements⟩ := sound _ (mem_singleton_self _) (by decide)
    cases mem_singleton.mp isCurrent
    obtain ⟨oif, isOif, found⟩ := implements.dev "eth9" rfl
    cases isOif
    revert found
    decide

end Nlink.Network
