import Mathlib.Data.List.Nodup
import Nlink.NetlinkBuilder

namespace Nlink.Nftables

open Netlink

/-!
# nftables data types

The values that rules, chains, sets and flowtables are built from, with the
numbers that stand for them on the wire, and the builder records that callers
fill in.
-/

/-- An address family. -/
inductive Family where
  | ip
  | ip6
  | inet
  | arp
  | bridge
  | netdev
  deriving DecidableEq

def Family.toU8 : Family → Nat
  | .ip => 2
  | .ip6 => 10
  | .inet => 1
  | .arp => 3
  | .bridge => 7
  | .netdev => 5

/-- A hook point of a base chain. -/
inductive Hook where
  | prerouting
  | input
  | forward
  | output
  | postrouting
  | netdevIngress
  | inetIngress
  | netdevEgress

/-- The kernel's hook number; netdev hooks have a numbering of their own. -/
def Hook.toU32 : Hook → Nat
  | .prerouting => 0
  | .input => 1
  | .forward => 2
  | .output => 3
  | .postrouting => 4
  | .inetIngress => 5
  | .netdevIngress => 0
  | .netdevEgress => 1

/-- A chain type. -/
inductive ChainType where
  | filter
  | nat
  | route
  deriving DecidableEq

/-- A chain priority. -/
inductive Priority where
  | raw
  | mangle
  | dstNat
  | filter
  | security
  | srcNat
  | custom (value : Int)

/-- The number that orders chains on a hook. -/
def Priority.toI32 : Priority → Int
  | .raw => -300
  | .mangle => -150
  | .dstNat => -100
  | .filter => 0
  | .security => 50
  | .srcNat => 100
  | .custom value => value

/-- The default policy of a base chain. -/
inductive Policy where
  | accept
  | drop

def Policy.toU32 : Policy → Nat
  | .accept => 1
  | .drop => 0

/-- The longest name in bytes, one byte being kept for the terminator. -/
def MAX_LEN : Nat := 255

/-- A name that the kernel accepts for a table or a chain. -/
structure ValidName (name : String) : Prop where
  nonempty : name ≠ ""
  fits : name.utf8ByteSize ≤ MAX_LEN
  terminated : '\x00' ∉ name.toList

instance (name : String) : Decidable (ValidName name) :=
  decidable_of_iff (name ≠ "" ∧ name.utf8ByteSize ≤ MAX_LEN ∧ '\x00' ∉ name.toList)
    ⟨fun all => ⟨all.1, all.2.1, all.2.2⟩, fun valid => ⟨valid.1, valid.2, valid.3⟩⟩

/-- The error for a name that the kernel rejects, checked in order. -/
def nameError (type noun name : String) : Option Error :=
  if name = "" then
    some (.invalidMessage (type ++ ": empty " ++ noun ++ " names are rejected by nftables"))
  else if name.utf8ByteSize > MAX_LEN then
    some (.invalidMessage (type ++ ": " ++ toString name.utf8ByteSize ++
        " bytes exceeds NFT_NAME_MAXLEN-1 (" ++ toString MAX_LEN ++ " bytes)"))
  else if '\x00' ∈ name.toList then
    some (.invalidMessage (type ++ ": interior NUL bytes are rejected — nftables wire format " ++
        "is a NUL-terminated C string"))
  else
    none

theorem nameError_eq_none (type noun name : String) :
    nameError type noun name = none ↔ ValidName name := by
  rw [nameError]
  constructor
  · intro accepted
    split at accepted
    · cases accepted
    · rename_i nonempty
      split at accepted
      · cases accepted
      · rename_i fits
        split at accepted
        · cases accepted
        · rename_i terminated
          exact ⟨nonempty, Nat.le_of_not_lt fits, terminated⟩
  · intro valid
    rw [if_neg valid.nonempty, if_neg (Nat.not_lt.mpr valid.fits), if_neg valid.terminated]

/-- A chain name that the kernel accepts. -/
structure ChainName where
  value : String
  valid : ValidName value

/-- A table name that the kernel accepts. -/
structure TableName where
  value : String
  valid : ValidName value

def ChainName.new (name : String) : Except Error ChainName :=
  match rejected : nameError "ChainName" "chain" name with
  | some error => .error error
  | none => .ok ⟨name, (nameError_eq_none _ _ _).mp rejected⟩

def TableName.new (name : String) : Except Error TableName :=
  match rejected : nameError "TableName" "table" name with
  | some error => .error error
  | none => .ok ⟨name, (nameError_eq_none _ _ _).mp rejected⟩

variable {name : String}

theorem ChainName.new_of_valid (valid : ValidName name) :
    ChainName.new name = .ok ⟨name, valid⟩ := by
  have accepted := (nameError_eq_none "ChainName" "chain" name).mpr valid
  rw [ChainName.new]
  split
  · rename_i rejected
    rw [accepted] at rejected
    cases rejected
  · rfl

theorem TableName.new_of_valid (valid : ValidName name) :
    TableName.new name = .ok ⟨name, valid⟩ := by
  have accepted := (nameError_eq_none "TableName" "table" name).mpr valid
  rw [TableName.new]
  split
  · rename_i rejected
    rw [accepted] at rejected
    cases rejected
  · rfl

theorem ChainName.value_of_new {checked : ChainName} (accepted : ChainName.new name = .ok checked) :
    checked.value = name := by
  rw [ChainName.new] at accepted
  split at accepted
  · cases accepted
  · cases accepted
    rfl

theorem TableName.value_of_new {checked : TableName} (accepted : TableName.new name = .ok checked) :
    checked.value = name := by
  rw [TableName.new] at accepted
  split at accepted
  · cases accepted
  · cases accepted
    rfl

/-- What a rule decides. -/
inductive Verdict where
  | accept
  | drop
  | continue
  | return
  | jumpTo (chain : ChainName)
  | gotoTo (chain : ChainName)

/-- The unit of a rate limit. -/
inductive LimitUnit where
  | second
  | minute
  | hour
  | day

def LimitUnit.toU64 : LimitUnit → Nat
  | .second => 1
  | .minute => 60
  | .hour => 3600
  | .day => 86400

/-- A register. -/
inductive Register where
  | verdict
  | r0
  | r1
  | r2
  | r3
  deriving DecidableEq

def Register.toU32 : Register → Nat
  | .verdict => 0
  | .r0 => 1
  | .r1 => 2
  | .r2 => 3
  | .r3 => 4

/-- A comparison operator. -/
inductive CmpOp where
  | eq
  | neq
  | lt
  | lte
  | gt
  | gte

/-- The kernel's number of an operator. -/
def CmpOp.toU32 : CmpOp → Nat
  | .eq => 0
  | .neq => 1
  | .lt => 2
  | .lte => 3
  | .gt => 4
  | .gte => 5

/-- The header that a payload offset counts from. -/
inductive PayloadBase where
  | linkLayer
  | network
  | transport

/-- The kernel's number of a header. -/
def PayloadBase.toU32 : PayloadBase → Nat
  | .linkLayer => 0
  | .network => 1
  | .transport => 2

/-- A metadata key. -/
inductive MetaKey where
  | len
  | protocol
  | mark
  | iif
  | oif
  | iifName
  | oifName
  | skUid
  | skGid
  | nfProto
  | l4Proto
  | cGroup

/-- The kernel's number of a metadata key. -/
def MetaKey.toU32 : MetaKey → Nat
  | .len => 0
  | .protocol => 1
  | .mark => 3
  | .iif => 4
  | .oif => 5
  | .iifName => 6
  | .oifName => 7
  | .skUid => 10
  | .skGid => 11
  | .nfProto => 15
  | .l4Proto => 16
  | .cGroup => 23

/-- A connection tracking key. -/
inductive CtKey where
  | state
  | direction
  | status
  | mark
  | secmark
  | expiration
  | helper
  | l3Protocol

/-- The kernel's number of a connection tracking key. -/
def CtKey.toU32 : CtKey → Nat
  | .state => 0
  | .direction => 1
  | .status => 2
  | .mark => 3
  | .secmark => 4
  | .expiration => 5
  | .helper => 6
  | .l3Protocol => 7

/-- The direction of an address translation. -/
inductive NatType where
  | snat
  | dnat

/-- The kernel's number of a translation. -/
def NatType.toU32 : NatType → Nat
  | .snat => 0
  | .dnat => 1

/-- Whether a translation's address register is in use. -/
inductive NatAddr where
  | none
  | v4 (address : Nat)
  | reg

/-- Whether the first register holds an address. -/
def NatAddr.regInUse : NatAddr → Bool
  | .none => false
  | .v4 _ => true
  | .reg => true

/-- An address translation. -/
structure NatExpr where
  natType : NatType
  family : Family
  addr : NatAddr
  port : Option Nat

/-- One expression of a rule. -/
inductive Expr where
  | metaLoad (dreg : Register) (key : MetaKey)
  | cmp (sreg : Register) (op : CmpOp) (data : List UInt8)
  | payload (dreg : Register) (base : PayloadBase) (offset len : Nat)
  | immediate (dreg : Register) (data : List UInt8)
  | verdict (verdict : Verdict)
  | counter
  | limit (rate : Nat) (unit : LimitUnit) (burst : Nat)
  | masquerade
  | nat (nat : NatExpr)
  | redirect (port : Option Nat)
  | reject (rejectType icmpCode : Nat)
  | log (logPrefix : Option String) (group : Option Nat)
  | ct (dreg : Register) (key : CtKey)
  | lookup (set : String) (sreg : Register)
  | bitwise (sreg dreg : Register) (len : Nat) (mask xor : List UInt8)
  | flowOffload (table : String)

/-- A rule as a caller builds it. -/
structure Rule where
  table : String
  chain : String
  family : Family
  exprs : List Expr
  position : Option Nat
  comment : Option String

def Rule.new (table chain : String) : Rule where
  table := table
  chain := chain
  family := .inet
  exprs := []
  position := none
  comment := none

/-- A chain as it goes into a transaction. -/
structure Chain where
  table : TableName
  name : ChainName
  family : Family
  hook : Option Hook
  priority : Option Priority
  chainType : Option ChainType
  policy : Option Policy
  device : Option String

/-- A chain without a hook; both names are checked. -/
def Chain.new (table name : String) : Except Error Chain := do
  let table ← TableName.new table
  let name ← ChainName.new name
  pure
    { table := table
      name := name
      family := .inet
      hook := none
      priority := none
      chainType := none
      policy := none
      device := none }

/-- The key type of a set. -/
inductive SetKeyType where
  | ipv4Addr
  | ipv6Addr
  | etherAddr
  | inetService
  | ifIndex
  | mark
  | inetProto
  | concat (parts : List SetKeyType)

mutual

/-- The datatype number of a key; a concatenation packs six bits a part, the
first part in the high bits, into 32 bits. -/
def SetKeyType.typeId : SetKeyType → Nat
  | .ipv4Addr => 7
  | .ipv6Addr => 8
  | .etherAddr => 9
  | .inetProto => 12
  | .inetService => 13
  | .mark => 19
  | .ifIndex => 20
  | .concat parts => SetKeyType.typeIds 0 parts

/-- The datatype numbers of the parts of a concatenation, packed. -/
def SetKeyType.typeIds (packed : Nat) : List SetKeyType → Nat
  | [] => packed
  | part :: parts => SetKeyType.typeIds ((packed <<< 6) % 2 ^ 32 ||| (part.typeId &&& 0x3F)) parts

end

mutual

/-- The key length in bytes; each part of a concatenation is padded to a
multiple of four. -/
def SetKeyType.len : SetKeyType → Nat
  | .ipv4Addr => 4
  | .ipv6Addr => 16
  | .etherAddr => 6
  | .inetService => 2
  | .ifIndex => 4
  | .mark => 4
  | .inetProto => 1
  | .concat parts => SetKeyType.lens parts

/-- The padded lengths of the parts of a concatenation, added up. -/
def SetKeyType.lens : List SetKeyType → Nat
  | [] => 0
  | part :: parts => nlaAlign part.len + SetKeyType.lens parts

end

/-- An element of a set. -/
structure SetElement where
  key : List UInt8
  deriving DecidableEq

/-- A set as it goes into a transaction. -/
structure Set where
  table : String
  name : String
  family : Family
  keyType : SetKeyType
  flags : Nat

/-- A set of IPv4 addresses without flags. -/
def Set.new (table name : String) : Set where
  table := table
  name := name
  family := .inet
  keyType := .ipv4Addr
  flags := 0

def NFT_FLOWTABLE_HW_OFFLOAD : Nat := 1
def NFT_FLOWTABLE_COUNTER : Nat := 2

/-- Set or clear some bits of a flag word. -/
def setFlag (flags flag : Nat) (on : Bool) : Nat :=
  if on then flags ||| flag else flags ^^^ (flags &&& flag)

/-- A flowtable as it goes into a transaction. -/
structure Flowtable where
  family : Family
  table : String
  name : String
  devs : List String
  priority : Int
  flags : Nat

namespace Flowtable

/-- A flowtable without devices. -/
def new (family : Family) (table name : String) : Flowtable where
  family := family
  table := table
  name := name
  devs := []
  priority := 0
  flags := 0

def device (flowtable : Flowtable) (dev : String) : Flowtable :=
  { flowtable with devs := flowtable.devs ++ [dev] }

def hwOffload (flowtable : Flowtable) (on : Bool) : Flowtable :=
  { flowtable with flags := setFlag flowtable.flags NFT_FLOWTABLE_HW_OFFLOAD on }

def counter (flowtable : Flowtable) (on : Bool) : Flowtable :=
  { flowtable with flags := setFlag flowtable.flags NFT_FLOWTABLE_COUNTER on }

end Flowtable

/-!
## Declared rulesets

A configuration is a list of table declarations, in the order of the builder's
calls; nothing keeps a caller from declaring a table twice.  What the builder
guarantees is kept in the records: a declared rule or flowtable carries the
name and the family of the table it is declared in, and a declared flowtable
has no flags other than the two that the builder can set.
-/

abbrev TableKey := Family × String

/-- A declared chain; a property that is `none` is not specified. -/
structure DeclaredChain where
  name : String
  hook : Option Hook
  priority : Option Priority
  policy : Option Policy
  chainType : Option ChainType
  device : Option String

/-- A declared chain of which only the name is specified. -/
def DeclaredChain.new (name : String) : DeclaredChain where
  name := name
  hook := none
  priority := none
  policy := none
  chainType := none
  device := none

/-- A declared set with its elements. -/
structure DeclaredSet where
  name : String
  keyType : SetKeyType
  flags : Nat
  elements : List SetElement

/-- A declared set of IPv4 addresses. -/
def DeclaredSet.new (name : String) : DeclaredSet where
  name := name
  keyType := .ipv4Addr
  flags := 0
  elements := []

/-- A declared rule; its body is whatever the caller's closure returned. -/
structure DeclaredRule where
  table : String
  chain : String
  family : Family
  handleKey : Option String
  body : Rule

/-- The flags of a flowtable that the builders can set. -/
def KnownFlags (flags : Nat) : Prop :=
  flags < 4

instance (flags : Nat) : Decidable (KnownFlags flags) :=
  inferInstanceAs (Decidable (flags < 4))

/-- A flowtable under declaration. -/
structure DeclaredFlowtableBuilder where
  name : String
  devs : List String
  priority : Int
  flags : Nat
  known : KnownFlags flags

namespace DeclaredFlowtableBuilder

/-- A flowtable without devices. -/
def new (name : String) : DeclaredFlowtableBuilder where
  name := name
  devs := []
  priority := 0
  flags := 0
  known := by decide

end DeclaredFlowtableBuilder

/-- A declared flowtable. -/
structure DeclaredFlowtable where
  family : Family
  table : String
  name : String
  devs : List String
  priority : Int
  flags : Nat
  known : KnownFlags flags

def DeclaredFlowtableBuilder.intoFlowtable
    (builder : DeclaredFlowtableBuilder) (family : Family) (table : String) :
    DeclaredFlowtable where
  family := family
  table := table
  name := builder.name
  devs := builder.devs
  priority := builder.priority
  flags := builder.flags
  known := builder.known

/-- A declared table. -/
structure DeclaredTable where
  name : String
  family : Family
  flags : Nat
  chains : List DeclaredChain
  rules : List DeclaredRule
  flowtables : List DeclaredFlowtable
  sets : List DeclaredSet
  rulesOwned : ∀ rule ∈ rules, rule.table = name ∧ rule.family = family
  flowtablesOwned : ∀ flowtable ∈ flowtables, flowtable.table = name ∧ flowtable.family = family

namespace DeclaredTable

/-- The family and the name of a declared table. -/
def key (declared : DeclaredTable) : TableKey :=
  (declared.family, declared.name)

theorem key_eq (declared : DeclaredTable) (family : Family) (name : String) :
    declared.key = (family, name) ↔ declared.family = family ∧ declared.name = name :=
  Prod.mk_inj

/-- A table without contents. -/
def new (name : String) (family : Family) : DeclaredTable where
  name := name
  family := family
  flags := 0
  chains := []
  rules := []
  flowtables := []
  sets := []
  rulesOwned := by simp
  flowtablesOwned := by simp

def chain (declared : DeclaredTable) (chain : DeclaredChain) :
    DeclaredTable :=
  { declared with chains := declared.chains ++ [chain] }

/-- A rule of the table; the closure gets an empty rule of the chain. -/
def addRule (declared : DeclaredTable) (chain : String) (handleKey : Option String)
    (build : Rule → Rule) : DeclaredTable :=
  { declared with
    rules := declared.rules ++
      [{ table := declared.name
         chain := chain
         family := declared.family
         handleKey := handleKey
         body := build { Rule.new declared.name chain with family := declared.family } }]
    rulesOwned := by
      intro rule member
      rcases List.mem_append.mp member with member | member
      · exact declared.rulesOwned rule member
      · rw [List.mem_singleton.mp member]
        exact ⟨rfl, rfl⟩ }

def ruleKeyed (declared : DeclaredTable) (chain key : String) (build : Rule → Rule) :
    DeclaredTable :=
  declared.addRule chain (some key) build

def flowtable (declared : DeclaredTable) (builder : DeclaredFlowtableBuilder) :
    DeclaredTable :=
  { declared with
    flowtables := declared.flowtables ++ [builder.intoFlowtable declared.family declared.name]
    flowtablesOwned := by
      intro flowtable member
      rcases List.mem_append.mp member with member | member
      · exact declared.flowtablesOwned flowtable member
      · rw [List.mem_singleton.mp member]
        exact ⟨rfl, rfl⟩ }

/-- The rules that a table declares in a chain. -/
def rulesIn (declared : DeclaredTable) (chain : String) : List DeclaredRule :=
  declared.rules.filter fun rule => rule.chain = chain

end DeclaredTable

/-- A declared ruleset. -/
structure NftablesConfig where
  tables : List DeclaredTable

namespace NftablesConfig

def new : NftablesConfig where
  tables := []

/-- Declare a table; a table that is declared already is not merged. -/
def table (config : NftablesConfig) (name : String) (family : Family)
    (build : DeclaredTable → DeclaredTable) : NftablesConfig where
  tables := config.tables ++ [build (.new name family)]

/-- No table is declared twice. -/
def DeclaredOnce (config : NftablesConfig) : Prop :=
  (config.tables.map DeclaredTable.key).Nodup

instance (config : NftablesConfig) : Decidable config.DeclaredOnce :=
  inferInstanceAs (Decidable (List.Nodup _))

/-- A key is declared by one table. -/
theorem DeclaredOnce.eq_of_key {config : NftablesConfig} (once : config.DeclaredOnce)
    {first second : DeclaredTable} (firstMember : first ∈ config.tables)
    (secondMember : second ∈ config.tables) (sameKey : first.key = second.key) : first = second :=
  List.inj_on_of_nodup_map once firstMember secondMember sameKey

end NftablesConfig

end Nlink.Nftables
