import Mathlib.Data.List.Dedup
import Nlink.NftablesExpr
import Nlink.NftablesRuleset

namespace Nlink.Nftables

open Foundation Netlink

/-!
# Comparing a declared ruleset with the kernel's

The diff has a list for each kind of change.  Each declaration of a table
contributes to the lists: all of its contents if the kernel does not hold the
table, and else what a comparison by name, or by key for rules, finds.  What
the source pushes in a loop is the concatenation of what each turn pushes.
-/

/-- The result of a comparison. -/
structure NftablesDiff where
  tablesToAdd : List DeclaredTable
  tablesToModify : List (Family × String × Nat)
  tablesToDelete : List (Family × String)
  chainsToAdd : List (String × Family × DeclaredChain)
  chainsToModify : List (String × Family × DeclaredChain)
  chainsToDelete : List (String × Family × String)
  rulesToAdd : List DeclaredRule
  rulesToDelete : List (String × Family × String × Nat)
  rulesToReplace : List (String × Family × String × Nat × DeclaredRule)
  flowtablesToAdd : List DeclaredFlowtable
  flowtablesToDelete : List (Family × String × String)
  setsToAdd : List (String × Family × DeclaredSet)
  setsToDelete : List (String × Family × String)
  setElementsToAdd : List (String × Family × String × List SetElement)
  setElementsToRemove : List (String × Family × String × List SetElement)

namespace NftablesDiff

/-- `NftablesDiff::default`. -/
def empty : NftablesDiff :=
  ⟨[], [], [], [], [], [], [], [], [], [], [], [], [], [], []⟩

/-- The changes of one diff and then of another. -/
def append (first second : NftablesDiff) : NftablesDiff where
  tablesToAdd := first.tablesToAdd ++ second.tablesToAdd
  tablesToModify := first.tablesToModify ++ second.tablesToModify
  tablesToDelete := first.tablesToDelete ++ second.tablesToDelete
  chainsToAdd := first.chainsToAdd ++ second.chainsToAdd
  chainsToModify := first.chainsToModify ++ second.chainsToModify
  chainsToDelete := first.chainsToDelete ++ second.chainsToDelete
  rulesToAdd := first.rulesToAdd ++ second.rulesToAdd
  rulesToDelete := first.rulesToDelete ++ second.rulesToDelete
  rulesToReplace := first.rulesToReplace ++ second.rulesToReplace
  flowtablesToAdd := first.flowtablesToAdd ++ second.flowtablesToAdd
  flowtablesToDelete := first.flowtablesToDelete ++ second.flowtablesToDelete
  setsToAdd := first.setsToAdd ++ second.setsToAdd
  setsToDelete := first.setsToDelete ++ second.setsToDelete
  setElementsToAdd := first.setElementsToAdd ++ second.setElementsToAdd
  setElementsToRemove := first.setElementsToRemove ++ second.setElementsToRemove

instance : Append NftablesDiff where
  append := append

/-- The changes of a list of diffs. -/
def concat (diffs : List NftablesDiff) : NftablesDiff :=
  diffs.foldl append empty

/-- Whether there is nothing to change. -/
def isEmpty (diff : NftablesDiff) : Bool :=
  diff.tablesToAdd.isEmpty && diff.tablesToModify.isEmpty &&
    diff.tablesToDelete.isEmpty && diff.chainsToAdd.isEmpty &&
    diff.chainsToModify.isEmpty && diff.chainsToDelete.isEmpty &&
    diff.rulesToAdd.isEmpty && diff.rulesToDelete.isEmpty &&
    diff.rulesToReplace.isEmpty && diff.flowtablesToAdd.isEmpty &&
    diff.flowtablesToDelete.isEmpty && diff.setsToAdd.isEmpty &&
    diff.setsToDelete.isEmpty && diff.setElementsToAdd.isEmpty &&
    diff.setElementsToRemove.isEmpty

def changeCount (diff : NftablesDiff) : Nat :=
  diff.tablesToAdd.length + diff.tablesToModify.length +
    diff.tablesToDelete.length + diff.chainsToAdd.length +
    diff.chainsToModify.length + diff.chainsToDelete.length +
    diff.rulesToAdd.length + diff.rulesToDelete.length +
    diff.rulesToReplace.length + diff.flowtablesToAdd.length +
    diff.flowtablesToDelete.length + diff.setsToAdd.length +
    diff.setsToDelete.length + diff.setElementsToAdd.length +
    diff.setElementsToRemove.length

/-- Nothing is counted exactly when the difference is empty. -/
theorem changeCount_eq_zero (diff : NftablesDiff) : diff.changeCount = 0 ↔ diff.isEmpty = true := by
  simp [changeCount, isEmpty, and_assoc]

theorem concat_list (list : NftablesDiff → List α) (ofEmpty : list empty = [])
    (ofAppend : ∀ first second : NftablesDiff,
      list (first.append second) = list first ++ list second)
    (diffs : List NftablesDiff) : list (concat diffs) = diffs.flatMap list := by
  have fromAny : ∀ start : NftablesDiff,
      list (diffs.foldl append start) = list start ++ diffs.flatMap list := by
    induction diffs with
    | nil => simp
    | cons diff diffs ih =>
        intro start
        rw [List.foldl_cons, ih, ofAppend, List.flatMap_cons, List.append_assoc]
  rw [concat, fromAny, ofEmpty, List.nil_append]

end NftablesDiff

/-- The order in which a hash map yields its keys: any permutation. -/
structure HashOrder where
  arrange : List String → List String
  permutes : ∀ keys, (arrange keys).Perm keys

def HashOrder.insertion : HashOrder where
  arrange := id
  permutes := fun _ => List.Perm.refl _

/-- Only a declared value can drift. -/
def drifted [DecidableEq α] (declared current : Option α) : Bool :=
  declared.isSome && decide (current ≠ declared)

/-- Whether a property that a declared chain specifies differs from the
kernel's. -/
def chainHasDrifted (declared : DeclaredChain) (current : ChainInfo) : Bool :=
  drifted (declared.hook.map Hook.toU32) current.hook ||
    drifted (declared.priority.map Priority.toI32) current.priority ||
    drifted (declared.policy.map Policy.toU32) current.policy ||
    drifted declared.chainType current.chainType ||
    drifted declared.device current.device

/-- Whether a flowtable's devices, priority or flags differ from the
kernel's. -/
def flowtableDiffers (declared : DeclaredFlowtable) (current : Flowtable) :
    Bool :=
  declared.devs ≠ current.devs ∨ declared.priority ≠ current.priority ∨
    declared.flags ≠ current.flags

/-- What becomes of a declared rule. -/
inductive RuleAction where
  | add
  | replace (handle : Nat)
  | keep
  deriving DecidableEq

section Comparison

variable (order : ByteOrder)

/-- The kernel's rule with a key; of several, the last one listed. -/
def kernelByKey (kernelRules : List RuleInfo) (key : String) : Option RuleInfo :=
  kernelRules.reverse.find? fun rule => rule.comment = some key

/-- Whether a declared body and a kernel's body differ in normal form. -/
def bodyDiffers (body : Rule) (current : RuleInfo) : Bool :=
  normalizeTlv order (lowerToExpressionBytes order body) ≠
    normalizeTlv order current.expressionBytes

/-- Rules without a key are always added; others are looked up by key. -/
def ruleAction (kernelRules : List RuleInfo) (rule : DeclaredRule) :
    RuleAction :=
  match rule.handleKey with
  | none => .add
  | some key =>
      match kernelByKey kernelRules key with
      | none => .add
      | some current =>
          if bodyDiffers order rule.body current then .replace current.handle else .keep

/-- The replacement of a rule, if its body differs. -/
def replacement (declared : DeclaredTable) (kernelRules : List RuleInfo) (rule : DeclaredRule) :
    Option (String × Family × String × Nat × DeclaredRule) :=
  match ruleAction order kernelRules rule with
  | .replace handle => some (declared.name, declared.family, rule.chain, handle, rule)
  | _ => none

/-- The deletion of a kernel's rule. -/
def deletion (declared : DeclaredTable) (chain : String) (current : RuleInfo) :
    String × Family × String × Nat :=
  (declared.name, declared.family, chain, current.handle)

/-- Passes 1 and 2 for a chain in which rules are declared: the declared rules,
and the kernel's rules with keys that are not declared. -/
def diffDeclaredChain (declared : DeclaredTable) (currentRules : List RuleInfo)
    (chain : String) : NftablesDiff :=
  let declaredRules := declared.rulesIn chain
  let kernelRules := currentRules.filter fun rule => rule.chain = chain
  let declaredKeys := declaredRules.filterMap DeclaredRule.handleKey
  { NftablesDiff.empty with
    rulesToAdd := declaredRules.filter fun rule => ruleAction order kernelRules rule = .add
    rulesToReplace := declaredRules.filterMap (replacement order declared kernelRules)
    rulesToDelete :=
      (kernelRules.filter fun rule =>
        match rule.comment with
        | some key => key ∉ declaredKeys
        | none => false).map (deletion declared chain) }

/-- Pass 3 for a chain in which no rules are declared: if the chain is
declared, all of the kernel's rules with keys. -/
def diffOtherChain (declared : DeclaredTable) (currentRules : List RuleInfo)
    (chain : String) : NftablesDiff :=
  { NftablesDiff.empty with
    rulesToDelete :=
      if declared.chains.any fun declaredChain => declaredChain.name = chain
      then
        ((currentRules.filter fun rule => rule.chain = chain).filter
          fun rule => rule.comment.isSome).map (deletion declared chain)
      else
        [] }

/-- The rules of a table that the kernel holds. -/
def diffRules (hashOrder : HashOrder) (declared : DeclaredTable)
    (currentRules : List RuleInfo) : NftablesDiff :=
  let declaredInChain := (declared.rules.map DeclaredRule.chain).dedup
  let kernelInChain := (currentRules.map RuleInfo.chain).dedup
  NftablesDiff.concat
      ((hashOrder.arrange declaredInChain).map (diffDeclaredChain order declared currentRules)) ++
    NftablesDiff.concat
      (((hashOrder.arrange kernelInChain).filter fun chain => chain ∉ declaredInChain).map
        (diffOtherChain declared currentRules))

/-- The chains of a table that the kernel holds. -/
def diffChains (declared : DeclaredTable) (current : List ChainInfo) :
    NftablesDiff :=
  let named (chain : DeclaredChain) := current.find? fun candidate => candidate.name = chain.name
  { NftablesDiff.empty with
    chainsToAdd :=
      (declared.chains.filter fun chain => (named chain).isNone).map
        fun chain => (declared.name, declared.family, chain)
    chainsToModify :=
      (declared.chains.filter fun chain =>
        (named chain).any (chainHasDrifted chain)).map
        fun chain => (declared.name, declared.family, chain)
    chainsToDelete :=
      (current.filter fun candidate =>
        candidate.name ∉ declared.chains.map DeclaredChain.name).map
        fun candidate => (declared.name, declared.family, candidate.name) }

/-- The flowtables of a table that the kernel holds. -/
def diffFlowtables (declared : DeclaredTable) (current : List Flowtable) :
    NftablesDiff :=
  { NftablesDiff.empty with
    flowtablesToAdd :=
      declared.flowtables.filter fun flowtable =>
        match current.find? fun candidate => candidate.name = flowtable.name
        with
        | none => true
        | some candidate => flowtableDiffers flowtable candidate
    flowtablesToDelete :=
      (current.filter fun candidate =>
        candidate.name ∉ declared.flowtables.map DeclaredFlowtable.name).map
        fun candidate => (declared.family, declared.name, candidate.name) }

def addSet (declared : DeclaredTable) (set : DeclaredSet) : NftablesDiff :=
  { NftablesDiff.empty with
    setsToAdd := [(declared.name, declared.family, set)]
    setElementsToAdd :=
      if set.elements.isEmpty then
        []
      else
        [(declared.name, declared.family, set.name, set.elements)] }

/-- The elements of a set that both sides have, by key bytes. -/
def diffElements (declared : DeclaredTable) (set : DeclaredSet)
    (current : List SetElement) : NftablesDiff :=
  let toAdd := set.elements.filter fun element => element.key ∉ current.map SetElement.key
  let toRemove := current.filter fun element => element.key ∉ set.elements.map SetElement.key
  { NftablesDiff.empty with
    setElementsToAdd :=
      if toAdd.isEmpty then [] else [(declared.name, declared.family, set.name, toAdd)]
    setElementsToRemove :=
      if toRemove.isEmpty then [] else [(declared.name, declared.family, set.name, toRemove)] }

/-- The sets of a table that the kernel holds. -/
def diffSets (kernel : Ruleset) (declared : DeclaredTable) : NftablesDiff :=
  let current := kernel.listSetsIn declared.key
  NftablesDiff.concat
      (declared.sets.map fun set =>
        if set.name ∈ current.map SetInfo.name then
          diffElements declared set (kernel.listSetElements declared.key set.name)
        else
          addSet declared set) ++
    { NftablesDiff.empty with
      setsToDelete :=
        (current.filter fun candidate =>
          candidate.name ∉ declared.sets.map DeclaredSet.name).map
          fun candidate => (declared.name, declared.family, candidate.name) }

/-- The chains, rules and flowtables that a table declares. -/
def contents (declared : DeclaredTable) : NftablesDiff :=
  { NftablesDiff.empty with
    chainsToAdd := declared.chains.map fun chain => (declared.name, declared.family, chain)
    rulesToAdd := declared.rules
    flowtablesToAdd := declared.flowtables }

/-- Everything that a table declares, for a table that is created. -/
def promote (declared : DeclaredTable) : NftablesDiff :=
  contents declared ++ NftablesDiff.concat (declared.sets.map (addSet declared))

/-- The comparison of a table that both sides have. -/
def reconcile (hashOrder : HashOrder) (kernel : Ruleset)
    (declared : DeclaredTable) : NftablesDiff :=
  diffChains declared (kernel.listChainsIn declared.key) ++
    diffRules order hashOrder declared (kernel.listRules declared.key) ++
    diffFlowtables declared (kernel.listFlowtablesIn declared.key) ++
    diffSets kernel declared

/-- The kernel's table that a declaration names. -/
def currentTable (kernel : Ruleset) (declared : DeclaredTable) : Option Table :=
  kernel.listTables.find? fun table => table.key = declared.key

/-- Passes 1 and 2 over the tables; only a purge deletes tables. -/
def diffTables (config : NftablesConfig) (kernel : Ruleset) (purgeTables : Bool) : NftablesDiff :=
  { NftablesDiff.empty with
    tablesToAdd := config.tables.filter fun declared => (currentTable kernel declared).isNone
    tablesToModify :=
      (config.tables.filter fun declared =>
        (currentTable kernel declared).any fun current => current.flags ≠ declared.flags).map
        fun declared => (declared.family, declared.name, declared.flags)
    tablesToDelete :=
      if purgeTables then
        (kernel.listTables.filter fun current =>
          current.key ∉ config.tables.map DeclaredTable.key).map
          fun current => (current.family, current.name)
      else
        [] }

def diffTable (hashOrder : HashOrder) (kernel : Ruleset)
    (tablesToAdd : List DeclaredTable) (declared : DeclaredTable) :
    NftablesDiff :=
  if tablesToAdd.any fun table => table.key = declared.key then
    promote declared
  else
    reconcile order hashOrder kernel declared

/-- `diff_with_options`. -/
def diffWithOptions (hashOrder : HashOrder) (config : NftablesConfig)
    (kernel : Ruleset) (purgeTables : Bool) : NftablesDiff :=
  let tables := diffTables config kernel purgeTables
  tables ++ NftablesDiff.concat
      (config.tables.map (diffTable order hashOrder kernel tables.tablesToAdd))

/-- `diff`: tables are never deleted. -/
def diff (hashOrder : HashOrder) (config : NftablesConfig) (kernel : Ruleset) : NftablesDiff :=
  diffWithOptions order hashOrder config kernel false

end Comparison

end Nlink.Nftables
