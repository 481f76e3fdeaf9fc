import Mathlib.Data.List.DropRight
import Mathlib.Tactic.MkIffOfInductiveProp
import Nlink.Foundation.Batch
import Nlink.Foundation.Keyed
import Nlink.NftablesTypes

namespace Nlink.Nftables

open Netlink
open List hiding set

/-!
# Comments in a rule's user data

A rule's key travels through the kernel as a comment: a type byte, a length
byte, and the text `nlink:` and the key with a terminator.  Reading a comment
back trims every NUL off its end, so that a key is read back unchanged exactly
when it is short enough and does not end with one.
-/

def NFTNL_UDATA_RULE_COMMENT : Nat := 0

/-- The longest comment in bytes, with its terminator. -/
def NFTNL_UDATA_COMMENT_MAXLEN : Nat := 128

/-- What marks a comment as a key. -/
def NLINK_PREFIX : String := "nlink:"

/-- The comment entry for a key, unless it is too long. -/
def encodeNlinkComment (key : String) : Option (List UInt8) :=
  let bodyBytes := asBytes (NLINK_PREFIX ++ key ++ "\x00")
  if bodyBytes.length > NFTNL_UDATA_COMMENT_MAXLEN then
    none
  else
    some (UInt8.ofNat NFTNL_UDATA_RULE_COMMENT :: UInt8.ofNat bodyBytes.length :: bodyBytes)

/-- `str::from_utf8`. -/
def fromUtf8 (bytes : List UInt8) : Option String :=
  String.fromUTF8? ⟨bytes.toArray⟩

/-- `trim_end_matches` for NUL. -/
def trimEndNul (text : String) : String :=
  String.ofList (text.toList.rdropWhile (· == '\x00'))

/-- `strip_prefix`. -/
def stripPrefix (start text : String) : Option String :=
  if start.toList <+: text.toList then
    some (String.ofList (text.toList.drop start.toList.length))
  else
    none

def commentKey (payload : List UInt8) : Option String := do
  let text ← fromUtf8 payload
  stripPrefix NLINK_PREFIX (trimEndNul text)

/-- Walk at most `fuel` entries to the first comment. -/
def parseNlinkCommentFrom : Nat → List UInt8 → Option String
  | fuel + 1, ty :: len :: rest =>
      if rest.length < len.toNat then
        none
      else if ty.toNat = NFTNL_UDATA_RULE_COMMENT then
        commentKey (rest.take len.toNat)
      else
        parseNlinkCommentFrom fuel (rest.drop len.toNat)
  | _, _ => none

/-- The key of a rule, if its user data has one. -/
def parseNlinkComment (userdata : List UInt8) : Option String :=
  parseNlinkCommentFrom userdata.length userdata

/-- A key that the encoder accepts and the parser reads back unchanged. -/
structure RoundTrips (key : String) : Prop where
  short : key.utf8ByteSize + 7 ≤ NFTNL_UDATA_COMMENT_MAXLEN
  noTrailingNul : trimEndNul key = key

instance (key : String) : Decidable (RoundTrips key) :=
  decidable_of_iff
    (key.utf8ByteSize + 7 ≤ NFTNL_UDATA_COMMENT_MAXLEN ∧ trimEndNul key = key)
    ⟨fun both => ⟨both.1, both.2⟩, fun trips => ⟨trips.1, trips.2⟩⟩

theorem asBytes_length (text : String) : (asBytes text).length = text.utf8ByteSize := by
  rfl

/-- A text is read back from its bytes. -/
theorem fromUtf8_asBytes (text : String) : fromUtf8 (asBytes text) = some text := by
  have bytes : (⟨(asBytes text).toArray⟩ : ByteArray) = text.toByteArray := by
    simp [asBytes, String.toUTF8]
  have valid : text.toByteArray.IsValidUTF8 := text.isValidUTF8
  rw [fromUtf8, bytes, String.fromUTF8?, dif_pos valid]
  rfl

theorem asBytes_of_fromUtf8 {bytes : List UInt8} {text : String}
    (read : fromUtf8 bytes = some text) : asBytes text = bytes := by
  rw [fromUtf8, String.fromUTF8?] at read
  split at read
  · cases read
    rfl
  · cases read

theorem asBytes_append (first second : String) :
    asBytes (first ++ second) = asBytes first ++ asBytes second := by
  simp [asBytes, String.toUTF8]

/-- A string is read from behind its terminator without the NULs at its own end. -/
theorem trimEndNul_terminated (text : String) :
    trimEndNul ((fromUtf8 (asBytes text ++ [0])).getD "") = trimEndNul text := by
  have single : asBytes (String.ofList ['\x00']) = [0] := by decide +kernel
  rw [← single, ← asBytes_append, fromUtf8_asBytes, Option.getD_some, trimEndNul,
    String.toList_append, String.toList_ofList, rdropWhile_concat_pos _ _ _ (by decide),
    trimEndNul]

theorem comment_length (key : String) : (asBytes (NLINK_PREFIX ++ key ++ "\x00")).length =
      key.utf8ByteSize + 7 := by
  have marks : NLINK_PREFIX.utf8ByteSize = 6 := by decide
  have terminator : "\x00".utf8ByteSize = 1 := by decide
  rw [asBytes_length, String.utf8ByteSize_append, String.utf8ByteSize_append, marks, terminator]
  omega

theorem trimEndNul_comment (key : String) : trimEndNul (NLINK_PREFIX ++ key ++ "\x00") =
      NLINK_PREFIX ++ trimEndNul key := by
  have terminator : "\x00".toList = ['\x00'] := by decide
  have marks : NLINK_PREFIX.toList = "nlink".toList ++ [':'] := by decide
  have trimmed : (NLINK_PREFIX.toList ++ key.toList).rdropWhile (· == '\x00') =
        NLINK_PREFIX.toList ++ key.toList.rdropWhile (· == '\x00') := by
    induction key.toList using List.reverseRecOn with
    | nil =>
        rw [List.append_nil, rdropWhile_nil, List.append_nil, marks,
          rdropWhile_concat_neg _ _ _ (by decide)]
    | append_singleton start last ih =>
        rw [← List.append_assoc, rdropWhile_concat, rdropWhile_concat, ih]
        split <;> simp
  rw [trimEndNul, String.toList_append, String.toList_append, terminator, rdropWhile_concat_pos
    _ _ _ (by decide), trimmed, String.ofList_append, String.ofList_toList, trimEndNul]

theorem stripPrefix_append (start text : String) :
    stripPrefix start (start ++ text) = some text := by
  rw [stripPrefix, String.toList_append, if_pos (prefix_append _ _),
    drop_left, String.ofList_toList]

theorem parse_encode (key : String) : (encodeNlinkComment key).bind parseNlinkComment =
      if key.utf8ByteSize + 7 ≤ NFTNL_UDATA_COMMENT_MAXLEN then
        some (trimEndNul key)
      else
        none := by
  rw [encodeNlinkComment]
  simp only [comment_length]
  by_cases short : key.utf8ByteSize + 7 ≤ NFTNL_UDATA_COMMENT_MAXLEN
  · have length : (UInt8.ofNat (key.utf8ByteSize + 7)).toNat =
          (asBytes (NLINK_PREFIX ++ key ++ "\x00")).length := by
      rw [comment_length, UInt8.toNat_ofNat']
      exact Nat.mod_eq_of_lt (Nat.lt_of_le_of_lt short (by decide))
    rw [if_neg (Nat.not_lt.mpr short), if_pos short, Option.bind_some, parseNlinkComment,
      length_cons, parseNlinkCommentFrom, length, if_neg (Nat.lt_irrefl _), if_pos (by decide),
      take_length, commentKey, fromUtf8_asBytes]
    simp only [Option.bind_eq_bind, Option.bind_some]
    rw [trimEndNul_comment, stripPrefix_append]
  · rw [if_pos (Nat.lt_of_not_le short), if_neg short, Option.bind_none]

/-- A key survives its comment exactly when it round-trips. -/
theorem parse_encode_eq_some_self (key : String) :
    (encodeNlinkComment key).bind parseNlinkComment = some key ↔ RoundTrips key := by
  rw [parse_encode]
  constructor
  · intro readBack
    split at readBack
    · rename_i short
      exact ⟨short, Option.some.inj readBack⟩
    · cases readBack
  · intro trips
    rw [if_pos trips.short, trips.noTrailingNul]

example : RoundTrips "input/ssh-accept" := by decide

open Foundation

/-!
## The kernel's ruleset and the operations of a batch

The kernel keeps tables and the chains, rules, sets and flowtables in them.  A
batch is a list of operations; each has an effect on the ruleset, and the
reasons for which the kernel rejects an operation are predicates of their own,
so that a result names the ones it is about.
-/

/-- What a rule's body names: a set, a chain or a flowtable of its table. -/
inductive Reference where
  | set (name : String)
  | chain (name : String)
  | flowtable (name : String)

def Expr.references : Expr → List Reference
  | .lookup set _ => [.set set]
  | .verdict (.jumpTo chain) => [.chain chain.value]
  | .verdict (.gotoTo chain) => [.chain chain.value]
  | .flowOffload table => [.flowtable table]
  | _ => []

def Rule.references (rule : Rule) : List Reference :=
  rule.exprs.flatMap Expr.references

/-- A table of the kernel. -/
structure Table where
  name : String
  family : Family
  flags : Nat

def Table.key (table : Table) : TableKey :=
  (table.family, table.name)

/-- A chain of the kernel. -/
structure ChainInfo where
  table : String
  name : String
  family : Family
  hook : Option Nat
  priority : Option Int
  chainType : Option ChainType
  device : Option String
  policy : Option Nat

def ChainInfo.owner (chain : ChainInfo) : TableKey :=
  (chain.family, chain.table)

/-- A rule of the kernel.  The references are those of the body, which the
kernel tracks; a listing does not show them. -/
structure RuleInfo where
  table : String
  chain : String
  family : Family
  handle : Nat
  userdataRaw : Option (List UInt8)
  expressionBytes : List UInt8
  references : List Reference

namespace RuleInfo

def owner (rule : RuleInfo) : TableKey :=
  (rule.family, rule.table)

/-- The key in the rule's user data, as `parse_rule` reads it. -/
def comment (rule : RuleInfo) : Option String :=
  rule.userdataRaw.bind parseNlinkComment

/-- Whether a rule is in a chain. -/
def isIn (rule : RuleInfo) (owner : TableKey) (chain : String) : Bool :=
  rule.owner = owner ∧ rule.chain = chain

end RuleInfo

/-- A set of the kernel with its elements. -/
structure SetInfo where
  table : String
  name : String
  family : Family
  flags : Nat
  keyType : Nat
  keyLen : Nat
  elements : List SetElement

def SetInfo.owner (set : SetInfo) : TableKey :=
  (set.family, set.table)

def Flowtable.owner (flowtable : Flowtable) : TableKey :=
  (flowtable.family, flowtable.table)

/-- The kernel's ruleset; rules are in the order of a listing. -/
structure Ruleset where
  tables : List Table
  chains : List ChainInfo
  rules : List RuleInfo
  sets : List SetInfo
  flowtables : List Flowtable
  nextHandle : Nat

namespace Ruleset

def listTables (ruleset : Ruleset) : List Table :=
  ruleset.tables

def listChainsIn (ruleset : Ruleset) (owner : TableKey) : List ChainInfo :=
  ruleset.chains.filter fun chain => chain.owner = owner

def listRules (ruleset : Ruleset) (owner : TableKey) : List RuleInfo :=
  ruleset.rules.filter fun rule => rule.owner = owner

def rulesIn (ruleset : Ruleset) (owner : TableKey) (chain : String) : List RuleInfo :=
  ruleset.rules.filter fun rule => rule.isIn owner chain

theorem listRules_filter_chain (ruleset : Ruleset) (owner : TableKey) (chain : String) :
    ((ruleset.listRules owner).filter fun rule => rule.chain = chain) =
      ruleset.rulesIn owner chain := by
  rw [listRules, filter_filter, rulesIn]
  refine filter_congr fun rule _ => ?_
  simp [RuleInfo.isIn, Bool.and_comm]

theorem mem_rulesIn {ruleset : Ruleset} {owner : TableKey} {chain : String} {rule : RuleInfo} :
    rule ∈ ruleset.rulesIn owner chain ↔
      rule ∈ ruleset.rules ∧ rule.owner = owner ∧ rule.chain = chain := by
  simp [rulesIn, RuleInfo.isIn]

def listFlowtablesIn (ruleset : Ruleset) (owner : TableKey) : List Flowtable :=
  ruleset.flowtables.filter fun flowtable => flowtable.owner = owner

def listSetsIn (ruleset : Ruleset) (owner : TableKey) : List SetInfo :=
  ruleset.sets.filter fun set => set.owner = owner

def listSetElements (ruleset : Ruleset) (owner : TableKey) (name : String) : List SetElement :=
  match ruleset.sets.find? fun set => set.owner = owner ∧ set.name = name with
  | some set => set.elements
  | none => []

def HasTable (ruleset : Ruleset) (owner : TableKey) : Prop :=
  ∃ table ∈ ruleset.tables, table.key = owner

def HasChain (ruleset : Ruleset) (owner : TableKey) (name : String) : Prop :=
  ∃ chain ∈ ruleset.chains, chain.owner = owner ∧ chain.name = name

def HasSet (ruleset : Ruleset) (owner : TableKey) (name : String) : Prop :=
  ∃ set ∈ ruleset.sets, set.owner = owner ∧ set.name = name

/-- Whether the kernel holds a flowtable. -/
def HasFlowtable (ruleset : Ruleset) (owner : TableKey) (name : String) :
    Prop :=
  ∃ flowtable ∈ ruleset.flowtables, flowtable.owner = owner ∧ flowtable.name = name

instance (ruleset : Ruleset) (owner : TableKey) : Decidable (ruleset.HasTable owner) :=
  inferInstanceAs (Decidable (∃ table ∈ ruleset.tables, table.key = owner))

instance (ruleset : Ruleset) (owner : TableKey) (name : String) :
    Decidable (ruleset.HasChain owner name) :=
  inferInstanceAs (Decidable (∃ chain ∈ ruleset.chains, chain.owner = owner ∧ chain.name = name))

instance (ruleset : Ruleset) (owner : TableKey) (name : String) :
    Decidable (ruleset.HasSet owner name) :=
  inferInstanceAs (Decidable (∃ set ∈ ruleset.sets, set.owner = owner ∧ set.name = name))

instance (ruleset : Ruleset) (owner : TableKey) (name : String) :
    Decidable (ruleset.HasFlowtable owner name) :=
  inferInstanceAs (Decidable (∃ flowtable ∈ ruleset.flowtables,
    flowtable.owner = owner ∧ flowtable.name = name))

/-- Whether a table holds what a reference names. -/
def Resolves (ruleset : Ruleset) (owner : TableKey) : Reference → Prop
  | .set name => ruleset.HasSet owner name
  | .chain name => ruleset.HasChain owner name
  | .flowtable name => ruleset.HasFlowtable owner name

instance (ruleset : Ruleset) (owner : TableKey) :
    (reference : Reference) → Decidable (ruleset.Resolves owner reference)
  | .set name => inferInstanceAs (Decidable (ruleset.HasSet owner name))
  | .chain name => inferInstanceAs (Decidable (ruleset.HasChain owner name))
  | .flowtable name => inferInstanceAs (Decidable (ruleset.HasFlowtable owner name))

/-- What the kernel guarantees of every ruleset. -/
@[mk_iff]
structure WellFormed (ruleset : Ruleset) : Prop where
  /-- Names are unique. -/
  tablesDistinct : (ruleset.tables.map Table.key).Nodup
  chainsDistinct : (ruleset.chains.map fun chain => (chain.owner, chain.name)).Nodup
  setsDistinct : (ruleset.sets.map fun set => (set.owner, set.name)).Nodup
  flowtablesDistinct :
    (ruleset.flowtables.map fun flowtable =>
      (flowtable.owner, flowtable.name)).Nodup
  /-- Objects are in tables, and rules in chains, that exist. -/
  chainsOwned : ∀ chain ∈ ruleset.chains, ruleset.HasTable chain.owner
  setsOwned : ∀ set ∈ ruleset.sets, ruleset.HasTable set.owner
  flowtablesOwned : ∀ flowtable ∈ ruleset.flowtables, ruleset.HasTable flowtable.owner
  rulesOwned : ∀ rule ∈ ruleset.rules, ruleset.HasChain rule.owner rule.chain
  /-- Names are such as the kernel accepts. -/
  tableNames : ∀ table ∈ ruleset.tables, ValidName table.name
  chainNames : ∀ chain ∈ ruleset.chains, ValidName chain.name
  /-- Handles are unique in a table, and new ones are new. -/
  handlesDistinct : (ruleset.rules.map fun rule => (rule.owner, rule.handle)).Nodup
  handlesUsed : ∀ rule ∈ ruleset.rules, rule.handle < ruleset.nextHandle

instance (ruleset : Ruleset) : Decidable ruleset.WellFormed :=
  decidable_of_iff' _ (wellFormed_iff ruleset)

/-- A handle names one rule of a table. -/
theorem WellFormed.eq_of_handle {kernel : Ruleset} (wellFormed : kernel.WellFormed)
    {first second : RuleInfo} (firstMember : first ∈ kernel.rules)
    (secondMember : second ∈ kernel.rules) (sameOwner : first.owner = second.owner)
    (sameHandle : first.handle = second.handle) : first = second :=
  inj_on_of_nodup_map wellFormed.handlesDistinct firstMember secondMember
    (Prod.ext sameOwner sameHandle)

end Ruleset

/-- The hook attribute of a new chain. -/
structure ChainHook where
  hooknum : Nat
  priority : Int
  dev : Option String

/-- `NFT_MSG_NEWCHAIN`: attributes that are `none` are not in the message. -/
structure NewChain where
  flags : Nat
  family : Family
  table : String
  name : String
  chainType : Option ChainType
  hook : Option ChainHook
  policy : Option Nat

/-- `NFT_MSG_NEWRULE`: attributes that are `none` are not in the message.  The
references are those of the expressions. -/
structure NewRule where
  flags : Nat
  family : Family
  table : String
  chain : String
  position : Option Nat
  handle : Option Nat
  expressions : Option (List UInt8)
  userdata : Option (List UInt8)
  references : List Reference

/-- `NFT_MSG_NEWSET`. -/
structure NewSet where
  flags : Nat
  family : Family
  table : String
  name : String
  keyType : Nat
  keyLen : Nat
  setFlags : Nat
  setId : Nat

/-- `NFT_MSG_NEWFLOWTABLE`: attributes that are `none` are not in the
message. -/
structure NewFlowtable where
  flags : Nat
  family : Family
  table : String
  name : String
  hookNum : Nat
  priority : Int
  devs : Option (List String)
  flowtableFlags : Option Nat

/-- One message of a batch. -/
inductive BatchOp where
  | newTable (flags : Nat) (family : Family) (name : String) (tableFlags : Option Nat)
  | delTable (family : Family) (name : String)
  | newChain (message : NewChain)
  | delChain (family : Family) (table name : String)
  | newRule (message : NewRule)
  | delRule (family : Family) (table chain : String) (handle : Nat)
  | newSet (message : NewSet)
  | delSet (family : Family) (table name : String)
  | newSetElements (family : Family) (table set : String) (elements : List SetElement)
  | delSetElements (family : Family) (table set : String) (elements : List SetElement)
  | newFlowtable (message : NewFlowtable)
  | delFlowtable (family : Family) (table name : String)

/-- Whether a flag is set in a message's flags. -/
def hasFlag (flags flag : Nat) : Bool :=
  flags &&& flag != 0

namespace NewChain

def owner (message : NewChain) : TableKey :=
  (message.family, message.table)

/-- The chain that a message creates.  The kernel gives base chains a type and
a policy when the message has none. -/
def create (message : NewChain) : ChainInfo where
  table := message.table
  name := message.name
  family := message.family
  hook := message.hook.map ChainHook.hooknum
  priority := message.hook.map ChainHook.priority
  chainType := message.chainType.or (message.hook.map fun _ => .filter)
  device := message.hook.bind ChainHook.dev
  policy := message.policy.or (message.hook.map fun _ => Policy.accept.toU32)

/-- The properties whose attributes are present are updated. -/
def update (message : NewChain) (chain : ChainInfo) : ChainInfo :=
  { chain with
    hook := (message.hook.map ChainHook.hooknum).or chain.hook
    priority := (message.hook.map ChainHook.priority).or chain.priority
    chainType := message.chainType.or chain.chainType
    device := (message.hook.bind ChainHook.dev).or chain.device
    policy := message.policy.or chain.policy }

end NewChain

namespace NewRule

def owner (message : NewRule) : TableKey :=
  (message.family, message.table)

/-- The rule that a message creates. -/
def create (message : NewRule) (handle : Nat) : RuleInfo where
  table := message.table
  chain := message.chain
  family := message.family
  handle := handle
  userdataRaw := message.userdata
  expressionBytes := message.expressions.getD []
  references := message.references

end NewRule

namespace NewSet

def owner (message : NewSet) : TableKey :=
  (message.family, message.table)

/-- The set that a message creates. -/
def create (message : NewSet) : SetInfo where
  table := message.table
  name := message.name
  family := message.family
  flags := message.setFlags
  keyType := message.keyType
  keyLen := message.keyLen
  elements := []

end NewSet

namespace NewFlowtable

def owner (message : NewFlowtable) : TableKey :=
  (message.family, message.table)

/-- The flowtable that a message creates. -/
def create (message : NewFlowtable) : Flowtable where
  family := message.family
  table := message.table
  name := message.name
  devs := message.devs.getD []
  priority := message.priority
  flags := message.flowtableFlags.getD 0

/-- The properties whose attributes are present are updated. -/
def update (message : NewFlowtable) (flowtable : Flowtable) : Flowtable :=
  { flowtable with
    devs := message.devs.getD flowtable.devs
    priority := message.priority
    flags := message.flowtableFlags.getD flowtable.flags }

end NewFlowtable

namespace Ruleset

/-- Put a rule behind the rule with a handle, or at the end. -/
def insertRule (rules : List RuleInfo) (owner : TableKey)
    (position : Option Nat) (fresh : RuleInfo) : List RuleInfo :=
  match position with
  | none => rules ++ [fresh]
  | some handle =>
      if rules.any fun rule => rule.owner = owner ∧ rule.handle = handle then
        rules.flatMap fun rule =>
          if rule.owner = owner ∧ rule.handle = handle then [rule, fresh] else [rule]
      else
        rules

/-- Add a rule, or replace the rule with a handle at its position. -/
def newRule (ruleset : Ruleset) (message : NewRule) : Ruleset :=
  let fresh := message.create ruleset.nextHandle
  { ruleset with
    rules :=
      if hasFlag message.flags NLM_F_REPLACE then
        ruleset.rules.map fun rule =>
          if rule.isIn message.owner message.chain ∧ some rule.handle = message.handle then
            fresh
          else
            rule
      else if hasFlag message.flags NLM_F_APPEND then
        insertRule ruleset.rules message.owner message.position fresh
      else
        fresh :: ruleset.rules
    nextHandle := ruleset.nextHandle + 1 }

/-- The effect of an operation that the kernel accepts. -/
def effect (ruleset : Ruleset) : BatchOp → Ruleset
  | .newTable _ family name tableFlags =>
      { ruleset with
        tables :=
          upsert (fun table => table.key = (family, name))
            (fun table => { table with flags := tableFlags.getD table.flags })
            { name := name, family := family, flags := tableFlags.getD 0 }
            ruleset.tables }
  | .delTable family name =>
      { ruleset with
        tables := ruleset.tables.filter fun table => table.key ≠ (family, name)
        chains := ruleset.chains.filter fun chain => chain.owner ≠ (family, name)
        rules := ruleset.rules.filter fun rule => rule.owner ≠ (family, name)
        sets := ruleset.sets.filter fun set => set.owner ≠ (family, name)
        flowtables := ruleset.flowtables.filter fun flowtable => flowtable.owner ≠ (family, name) }
  | .newChain message =>
      { ruleset with
        chains :=
          upsert
            (fun chain => chain.owner = message.owner ∧ chain.name = message.name)
            message.update message.create ruleset.chains }
  | .delChain family table name =>
      { ruleset with
        chains := ruleset.chains.filter fun chain =>
          ¬ (chain.owner = (family, table) ∧ chain.name = name)
        rules := ruleset.rules.filter fun rule => ¬ rule.isIn (family, table) name }
  | .newRule message => ruleset.newRule message
  | .delRule family table chain handle =>
      { ruleset with
        rules := ruleset.rules.filter fun rule =>
          ¬ (rule.isIn (family, table) chain ∧ rule.handle = handle) }
  | .newSet message =>
      { ruleset with
        sets :=
          upsert (fun set => set.owner = message.owner ∧ set.name = message.name)
            id message.create ruleset.sets }
  | .delSet family table name =>
      { ruleset with
        sets := ruleset.sets.filter fun set => ¬ (set.owner = (family, table) ∧ set.name = name) }
  | .newSetElements family table name elements =>
      { ruleset with
        sets := ruleset.sets.map fun set =>
          if set.owner = (family, table) ∧ set.name = name then
            { set with
              elements := set.elements ++ elements.filter fun element => element ∉ set.elements }
          else
            set }
  | .delSetElements family table name elements =>
      { ruleset with
        sets := ruleset.sets.map fun set =>
          if set.owner = (family, table) ∧ set.name = name then
            { set with elements := set.elements.filter fun element => element ∉ elements }
          else
            set }
  | .newFlowtable message =>
      { ruleset with
        flowtables :=
          upsert
            (fun flowtable => flowtable.owner = message.owner ∧ flowtable.name = message.name)
            message.update message.create ruleset.flowtables }
  | .delFlowtable family table name =>
      { ruleset with
        flowtables := ruleset.flowtables.filter fun flowtable =>
          ¬ (flowtable.owner = (family, table) ∧ flowtable.name = name) }

/-- The effect of a whole batch. -/
def commit (ruleset : Ruleset) (operations : List BatchOp) : Ruleset :=
  operations.foldl effect ruleset

end Ruleset

end Nlink.Nftables
