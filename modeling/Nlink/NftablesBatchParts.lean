import Nlink.NftablesBatch

namespace Nlink.Nftables

open Foundation Netlink NftablesDiff
open List hiding set

/-!
# The parts of a batch

A batch first deletes rules, elements, sets, chains and flowtables, then makes
tables and the objects in them, then writes rules, and last adds flowtables.
What each part does depends on what is declared: an object that a declaration
of its table leaves out is lost, and a rule that is not in force is written.
-/

/-- A table declares what a reference names. -/
def DeclaresObject (declared : DeclaredTable) : Reference → Prop
  | .set name => ∃ set ∈ declared.sets, set.name = name
  | .chain name => ∃ chain ∈ declared.chains, chain.name = name
  | .flowtable name => ∃ flowtable ∈ declared.flowtables, flowtable.name = name

instance (declared : DeclaredTable) :
    (reference : Reference) → Decidable (DeclaresObject declared reference)
  | .set _ => List.decidableBEx _ _
  | .chain _ => List.decidableBEx _ _
  | .flowtable _ => List.decidableBEx _ _

/-- A kernel's rule stays: whoever declares something in its chain declares its
key there. -/
def Stays (config : NftablesConfig) (rule : RuleInfo) : Prop :=
  ∀ declared ∈ config.tables, declared.key = rule.owner → Touches declared rule.chain →
      ∀ key, rule.comment = some key → DeclaresKey declared rule.chain key

/-- The kernel holds an object that a declaration of its table leaves out. -/
def Lost (config : NftablesConfig) (kernel : Ruleset) (owner : TableKey)
    (reference : Reference) : Prop :=
  kernel.Resolves owner reference ∧ ∃ declared ∈ config.tables,
      declared.key = owner ∧ ¬ DeclaresObject declared reference

/-- The kernel's chains that a declaration of their table leaves out, one
declaration after the other. -/
def lostChains (config : NftablesConfig) (kernel : Ruleset) : List (TableKey × String) :=
  config.tables.flatMap fun declared =>
    ((kernel.listChainsIn declared.key).filter fun chain =>
      chain.name ∉ declared.chains.map DeclaredChain.name).map
      fun chain => (declared.key, chain.name)

/-- The kernel holds a declared rule under its key and with its body. -/
def InForce (order : ByteOrder) (kernel : Ruleset) (declared : DeclaredTable)
    (rule : DeclaredRule) : Prop :=
  ∃ key current, rule.handleKey = some key ∧
      kernelByKey (kernel.rulesIn declared.key rule.chain) key = some current ∧
      bodyDiffers order rule.body current = false

namespace NftablesDiff

def ruleDeletions (diff : NftablesDiff) : List BatchOp :=
  diff.rulesToDelete.map fun (table, family, chain, handle) =>
    Transaction.delRule table chain family handle

/-- The operations that remove elements of sets. -/
def elementRemovals (diff : NftablesDiff) : List BatchOp :=
  diff.setElementsToRemove.map fun (table, family, set, elements) =>
    Transaction.delSetElements table set family elements

def setDeletions (diff : NftablesDiff) : List BatchOp :=
  diff.setsToDelete.map fun (table, family, name) => Transaction.delSet table name family

def chainDeletions (diff : NftablesDiff) : List BatchOp :=
  diff.chainsToDelete.map fun (table, family, name) => Transaction.delChain table name family

def flowtableDeletions (diff : NftablesDiff) : List BatchOp :=
  diff.flowtablesToDelete.map fun (family, table, name) =>
    Transaction.delFlowtable family table name

def tableCreations (diff : NftablesDiff) : List BatchOp :=
  diff.tablesToAdd.map fun table =>
    Transaction.addTableWithFlags table.name table.family table.flags

def tableUpdates (diff : NftablesDiff) : List BatchOp :=
  diff.tablesToModify.map fun (family, name, flags) =>
    Transaction.addTableWithFlags name family flags

def setAdditions (diff : NftablesDiff) : List BatchOp :=
  (diff.setsToAdd.zipIdx 1).map fun ((table, family, declared), setId) =>
    Transaction.addSet (buildSet table family declared) setId

/-- The operations that add elements to sets. -/
def elementAdditions (diff : NftablesDiff) : List BatchOp :=
  diff.setElementsToAdd.map fun (table, family, set, elements) =>
    Transaction.addSetElements table set family elements

/-- The operations between the creation of tables and the rules. -/
def objectAdditions (diff : NftablesDiff) : List BatchOp :=
  diff.tableUpdates ++ diff.setAdditions ++ diff.elementAdditions ++ diff.chainAdditions

/-- The batch, part by part. -/
theorem batch_eq (order : ByteOrder) (diff : NftablesDiff) : diff.batch order =
      diff.deletions ++ diff.tableCreations ++ diff.objectAdditions ++
        diff.ruleAdditions order ++ diff.flowtableAdditions := by
  have creations :
      (diff.tablesToAdd.map fun table =>
        if table.flags ≠ 0 then
          Transaction.addTableWithFlags table.name table.family table.flags
        else
          Transaction.addTable table.name table.family) =
        diff.tableCreations := by
    refine map_congr_left fun table _ => ?_
    rw [Transaction.addTableWithFlags, Transaction.addTable]
    split <;> rfl
  rw [batch, tableAdditions, creations, objectAdditions, tableUpdates,
    setAdditions, elementAdditions]
  simp only [List.append_assoc]

end NftablesDiff

theorem mem_rules_foldl (kernel : Ruleset) {operations : List BatchOp}
    (noRules : ∀ operation ∈ operations, operation.isNewRule = false) {rule : RuleInfo} :
    rule ∈ (operations.foldl Ruleset.effect kernel).rules ↔ rule ∈ kernel.rules ∧
        ∀ operation ∈ operations, operation.drops rule = false := by
  have commit : (operations.foldl Ruleset.effect kernel).rules = _ :=
    Ruleset.rules_commit kernel noRules
  rw [commit, mem_filter]
  simp

theorem chain_drops (entries : List (TableKey × String)) (rule : RuleInfo) :
    (∀ operation ∈ entries.map fun entry => BatchOp.delete entry.1 (.chain entry.2),
      operation.drops rule = false) ↔
      (rule.owner, rule.chain) ∉ entries := by
  simp only [forall_mem_map, BatchOp.delete, BatchOp.drops,
    RuleInfo.isIn, decide_eq_false_iff_not, Prod.mk.eta, decide_eq_true_eq]
  constructor
  · intro kept member
    exact kept _ member ⟨rfl, rfl⟩
  · rintro absent entry member ⟨isOwner, isChain⟩
    rw [isOwner, isChain] at absent
    exact absent member

theorem BatchOp.delete_inj {owner otherOwner : TableKey} {reference other : Reference} :
    BatchOp.delete owner reference = .delete otherOwner other ↔
      owner = otherOwner ∧ reference = other := by
  cases reference <;> cases other <;>
    simp [BatchOp.delete, Prod.ext_iff, and_assoc]

section Order

variable {order : ByteOrder}
variable {hashOrder : HashOrder}
variable {config : NftablesConfig}
variable {kernel : Ruleset}

theorem tablesToDelete_diff : (diff order hashOrder config kernel).tablesToDelete = [] := by
  apply eq_nil_iff_forall_not_mem.mpr
  rintro ⟨family, name⟩ member
  rw [diff, mem_tablesToDelete] at member
  cases member.1

/-- The deletions of the difference, part by part. -/
theorem deletions_diff : (diff order hashOrder config kernel).deletions =
      (diff order hashOrder config kernel).ruleDeletions ++
        (diff order hashOrder config kernel).elementRemovals ++
        (diff order hashOrder config kernel).setDeletions ++
        (diff order hashOrder config kernel).chainDeletions ++
        (diff order hashOrder config kernel).flowtableDeletions := by
  rw [deletions, tablesToDelete_diff, map_nil, List.append_nil]
  rfl

variable {owner : TableKey}

/-- An object is held in a table that is held. -/
theorem hasTable_of_resolves {kernel : Ruleset} (wellFormed : kernel.WellFormed)
    {reference : Reference} (held : kernel.Resolves owner reference) : kernel.HasTable owner := by
  cases reference with
  | set name =>
      obtain ⟨set, member, rfl, _⟩ := held
      exact wellFormed.setsOwned set member
  | chain name =>
      obtain ⟨chain, member, rfl, _⟩ := held
      exact wellFormed.chainsOwned chain member
  | flowtable name =>
      obtain ⟨flowtable, member, rfl, _⟩ := held
      exact wellFormed.flowtablesOwned flowtable member

theorem chainDeletions_diff (wellFormed : kernel.WellFormed) :
    (diff order hashOrder config kernel).chainDeletions =
      (lostChains config kernel).map fun entry =>
        BatchOp.delete entry.1 (.chain entry.2) := by
  have isList : IsListOf .chain chainsToDelete := ⟨⟨rfl, fun _ _ => rfl⟩, fun _ => rfl⟩
  rw [chainDeletions, diff, chainList_diff isList,
    lostChains, map_flatMap, map_flatMap]
  refine flatMap_congr fun declared _ => ?_
  by_cases held : kernel.HasTable declared.key
  · rw [if_pos held]
    simp only [diffChains, map_map]
    rfl
  · have noChains : kernel.listChainsIn declared.key = [] := by
      rw [Ruleset.listChainsIn, filter_eq_nil_iff]
      intro chain member isOwner
      rw [← of_decide_eq_true isOwner] at held
      exact held (wellFormed.chainsOwned chain member)
    rw [if_neg held, noChains]
    rfl

theorem mem_lostChains {name : String} : (owner, name) ∈ lostChains config kernel ↔
      Lost config kernel owner (.chain name) := by
  simp only [lostChains, Ruleset.listChainsIn, mem_flatMap, mem_map,
    mem_filter, decide_eq_true_eq, Prod.mk.injEq]
  constructor
  · rintro ⟨declared, declaredMember, chain, ⟨⟨member, owned⟩, undeclared⟩, rfl, rfl⟩
    exact ⟨⟨chain, member, owned, rfl⟩, declared, declaredMember, rfl, undeclared⟩
  · rintro ⟨⟨chain, member, owned, rfl⟩, declared, declaredMember, rfl, undeclared⟩
    exact ⟨declared, declaredMember, chain, ⟨⟨member, owned⟩, undeclared⟩, rfl, rfl⟩

section

variable (wellFormed : kernel.WellFormed)

include wellFormed

theorem ruleDeletions_drops {rule : RuleInfo} (member : rule ∈ kernel.rules) :
    (∀ operation ∈ (diff order hashOrder config kernel).ruleDeletions,
        operation.drops rule = false) ↔
      Stays config rule := by
  have chainHeld : kernel.Resolves rule.owner (.chain rule.chain) :=
    wellFormed.rulesOwned rule member
  have tableHeld := hasTable_of_resolves wellFormed chainHeld
  constructor
  · intro kept declared declaredMember sameKey touches key isKey
    by_contra undeclared
    have isDeleted : (rule.table, rule.family, rule.chain, rule.handle) ∈
          (diff order hashOrder config kernel).rulesToDelete := by
      rw [diff, mem_rulesToDelete]
      exact ⟨declared, declaredMember, sameKey, sameKey ▸ tableHeld, rule, Ruleset.mem_rulesIn.mpr
        ⟨member, sameKey.symm, rfl⟩, rfl, touches, key, isKey, undeclared⟩
    have dropped := kept _ (mem_map_of_mem isDeleted)
    simp [Transaction.delRule, BatchOp.drops, RuleInfo.isIn, RuleInfo.owner] at dropped
  · intro stays operation operationMember
    obtain ⟨⟨table, family, chain, handle⟩, isDeleted, rfl⟩ := mem_map.mp operationMember
    rw [diff, mem_rulesToDelete] at isDeleted
    obtain ⟨declared, declaredMember, sameKey, _, deleted, deletedMember,
      isHandle, touches, key, isKey, undeclared⟩ := isDeleted
    rw [Ruleset.mem_rulesIn] at deletedMember
    by_contra dropped
    simp only [Transaction.delRule, BatchOp.drops, RuleInfo.isIn,
      decide_eq_true_eq, Bool.not_eq_false] at dropped
    obtain ⟨⟨isOwner, isChain⟩, sameHandle⟩ := dropped
    have same : rule = deleted :=
      wellFormed.eq_of_handle member deletedMember.1
        (isOwner.trans (sameKey.symm.trans deletedMember.2.1.symm)) (sameHandle.trans isHandle.symm)
    rw [← same] at isKey
    rw [← isChain] at touches undeclared
    exact undeclared (stays declared declaredMember (sameKey.trans isOwner.symm) touches key isKey)

theorem mem_rules_afterDeletions {operations : List BatchOp}
    (noRules : ∀ operation ∈ operations, operation.isNewRule = false) {rule : RuleInfo} :
    rule ∈
        (((diff order hashOrder config kernel).ruleDeletions ++
          operations).foldl Ruleset.effect kernel).rules ↔
      rule ∈ kernel.rules ∧ Stays config rule ∧
        ∀ operation ∈ operations, operation.drops rule = false := by
  have noRules' : ∀ operation ∈ (diff order hashOrder config kernel).ruleDeletions ++ operations,
      operation.isNewRule = false := by
    intro operation member
    rcases mem_append.mp member with member | member
    · obtain ⟨entry, _, rfl⟩ := mem_map.mp member
      rfl
    · exact noRules operation member
  rw [mem_rules_foldl kernel noRules']
  refine and_congr_right fun member => ?_
  rw [forall_mem_append, ruleDeletions_drops wellFormed member]

theorem mem_setDeletions {operation : BatchOp} :
    operation ∈ (diff order hashOrder config kernel).setDeletions ↔
      ∃ owner name, Lost config kernel owner (.set name) ∧
        operation = .delete owner (.set name) := by
  constructor
  · intro member
    obtain ⟨⟨table, family, name⟩, isDeleted, rfl⟩ := mem_map.mp member
    rw [diff, mem_setsToDelete] at isDeleted
    obtain ⟨declared, declaredMember, sameKey, _, held, undeclared⟩ := isDeleted
    refine ⟨(family, table), name, ⟨sameKey ▸ held, declared, declaredMember, sameKey, ?_⟩, rfl⟩
    rintro ⟨set, setMember, isName⟩
    exact undeclared set setMember isName
  · rintro ⟨⟨family, table⟩, name, ⟨held, declared, declaredMember, sameKey, undeclared⟩, rfl⟩
    refine mem_map.mpr ⟨(table, family, name), ?_, rfl⟩
    rw [diff, mem_setsToDelete]
    refine ⟨declared, declaredMember, sameKey, ?_, sameKey ▸ held, ?_⟩
    · exact sameKey ▸ hasTable_of_resolves wellFormed held
    · intro set setMember isName
      exact undeclared ⟨set, setMember, isName⟩

theorem mem_flowtableDeletions {operation : BatchOp} :
    operation ∈ (diff order hashOrder config kernel).flowtableDeletions ↔
      ∃ owner name, Lost config kernel owner (.flowtable name) ∧
        operation = .delete owner (.flowtable name) := by
  constructor
  · intro member
    obtain ⟨⟨family, table, name⟩, isDeleted, rfl⟩ := mem_map.mp member
    rw [diff, mem_flowtablesToDelete] at isDeleted
    obtain ⟨declared, declaredMember, sameKey, _, held, undeclared⟩ := isDeleted
    refine ⟨(family, table), name, ⟨sameKey ▸ held, declared, declaredMember, sameKey, ?_⟩, rfl⟩
    rintro ⟨flowtable, flowtableMember, isName⟩
    exact undeclared flowtable flowtableMember isName
  · rintro ⟨⟨family, table⟩, name, ⟨held, declared, declaredMember, sameKey, undeclared⟩, rfl⟩
    refine mem_map.mpr ⟨(family, table, name), ?_, rfl⟩
    rw [diff, mem_flowtablesToDelete]
    refine ⟨declared, declaredMember, sameKey, ?_, sameKey ▸ held, ?_⟩
    · exact sameKey ▸ hasTable_of_resolves wellFormed held
    · intro flowtable flowtableMember isName
      exact undeclared ⟨flowtable, flowtableMember, isName⟩

theorem mem_chainDeletions {operation : BatchOp} :
    operation ∈ (diff order hashOrder config kernel).chainDeletions ↔
      ∃ owner name, Lost config kernel owner (.chain name) ∧
        operation = .delete owner (.chain name) := by
  rw [chainDeletions_diff wellFormed, mem_map, Prod.exists]
  simp only [mem_lostChains, @eq_comm _ _ operation]

theorem element_and_set_deletions : ∀ operation ∈
      (diff order hashOrder config kernel).elementRemovals ++
        (diff order hashOrder config kernel).setDeletions,
      operation.isNewRule = false ∧ ∀ rule, operation.drops rule = false := by
  intro operation member
  rcases mem_append.mp member with member | member
  · obtain ⟨entry, _, rfl⟩ := mem_map.mp member
    exact ⟨rfl, fun _ => rfl⟩
  · obtain ⟨owner, name, _, rfl⟩ := (mem_setDeletions wellFormed).mp member
    exact ⟨rfl, fun _ => rfl⟩

theorem mem_rules_afterChains (entries : List (TableKey × String)) {rule : RuleInfo} :
    rule ∈
        (((diff order hashOrder config kernel).ruleDeletions ++
          (diff order hashOrder config kernel).elementRemovals ++
          (diff order hashOrder config kernel).setDeletions ++
          entries.map fun entry =>
            BatchOp.delete entry.1 (.chain entry.2)).foldl Ruleset.effect kernel).rules ↔
      rule ∈ kernel.rules ∧ Stays config rule ∧ (rule.owner, rule.chain) ∉ entries := by
  have others := @element_and_set_deletions order hashOrder config kernel wellFormed
  rw [List.append_assoc (_ ++ _), List.append_assoc, mem_rules_afterDeletions wellFormed]
  · rw [← List.append_assoc, forall_mem_append, chain_drops,
      and_iff_right fun operation member => (others operation member).2 rule]
  · intro operation member
    rw [← List.append_assoc] at member
    rcases mem_append.mp member with member | member
    · exact (others operation member).1
    · obtain ⟨entry, _, rfl⟩ := mem_map.mp member
      rfl

end

variable {operation : BatchOp}

theorem batch_keeps_tables (member : operation ∈ (diff order hashOrder config kernel).batch order)
    (owner : TableKey) : ¬ operation.removesTable owner := by
  simp only [batch_eq, deletions_diff, ruleDeletions,
    elementRemovals, setDeletions, chainDeletions,
    flowtableDeletions, tableCreations, objectAdditions,
    tableUpdates, setAdditions, elementAdditions,
    chainAdditions, ruleAdditions, flowtableAdditions,
    mem_append, mem_map] at member
  intro removes
  rw [BatchOp.removesTable] at removes
  subst removes
  simp [Transaction.delRule, Transaction.delSetElements, Transaction.delSet, Transaction.delChain,
    Transaction.delFlowtable, Transaction.addTableWithFlags, Transaction.addSet,
    Transaction.addSetElements, Transaction.addRule, Transaction.replaceRule,
    Transaction.addFlowtable] at member

/-- The kernel holds the declared tables. -/
def HoldsTables (config : NftablesConfig) (ruleset : Ruleset) : Prop :=
  ∀ declared ∈ config.tables, ruleset.HasTable declared.key

/-- No operation of the batch removes a declared table. -/
theorem HoldsTables.effect {ruleset : Ruleset} (holds : HoldsTables config ruleset)
    (member : operation ∈ (diff order hashOrder config kernel).batch order) :
    HoldsTables config (ruleset.effect operation) := by
  intro declared declaredMember
  rw [Ruleset.hasTable_effect]
  exact Or.inl ⟨holds declared declaredMember, batch_keeps_tables member declared.key⟩

/-- Every declared table is held behind the creations. -/
theorem holdsTables_afterCreations : HoldsTables config
      (((diff order hashOrder config kernel).deletions ++
        (diff order hashOrder config kernel).tableCreations).foldl Ruleset.effect kernel) := by
  intro declared declaredMember
  have each : ∀ state : Ruleset, ∀ operation ∈ (diff order hashOrder config kernel).deletions ++
        (diff order hashOrder config kernel).tableCreations,
      (Ruleset.HasTable (state.effect operation) declared.key ↔
        Ruleset.HasTable state declared.key ∨ operation.makesTable declared.key) := by
    intro state operation member
    have inBatch : operation ∈ (diff order hashOrder config kernel).batch order := by
      rw [batch_eq]
      simp only [mem_append, List.append_assoc] at member ⊢
      tauto
    rw [Ruleset.hasTable_effect, and_iff_left (batch_keeps_tables inBatch _)]
  rw [foldl_or_iff Ruleset.effect (Ruleset.HasTable · declared.key) each]
  by_cases held : kernel.HasTable declared.key
  · exact Or.inl held
  · have isAdded : declared ∈ (diff order hashOrder config kernel).tablesToAdd := by
      rw [diff, tablesToAdd_diff, mem_filter]
      exact ⟨declaredMember, by simpa using held⟩
    exact Or.inr ⟨_, mem_append_right _ (mem_map_of_mem isAdded), _, _, rfl⟩

theorem ruleAction_eq_keep (declared : DeclaredTable) (rule : DeclaredRule) :
    ruleAction order (kernel.rulesIn declared.key rule.chain) rule = .keep ↔
      InForce order kernel declared rule := by
  rw [ruleAction, InForce]
  cases rule.handleKey with
  | none => simp
  | some key =>
      simp only [Option.some.injEq, exists_and_left, exists_eq_left']
      cases kernelByKey (kernel.rulesIn declared.key rule.chain) key with
      | none => simp
      | some current =>
          cases differs : bodyDiffers order rule.body current <;>
            simp [differs]

section

variable (wellFormed : kernel.WellFormed)

include wellFormed

theorem rulesIn_of_not_hasTable (missing : ¬ kernel.HasTable owner)
    (chain : String) : kernel.rulesIn owner chain = [] := by
  rw [eq_nil_iff_forall_not_mem]
  intro rule member
  rw [Ruleset.mem_rulesIn] at member
  obtain ⟨ruleMember, rfl, _⟩ := member
  have chainHeld : kernel.Resolves rule.owner (.chain rule.chain) :=
    wellFormed.rulesOwned rule ruleMember
  exact missing (hasTable_of_resolves wellFormed chainHeld)

theorem mem_ruleAdditions {operation : BatchOp} :
    operation ∈ (diff order hashOrder config kernel).ruleAdditions order ↔
      ∃ declared ∈ config.tables, ∃ rule ∈ declared.rules,
        (ruleAction order (kernel.rulesIn declared.key rule.chain) rule = .add ∧
          operation = Transaction.addRule order (sentBody rule)) ∨
        ∃ handle, ruleAction order (kernel.rulesIn declared.key rule.chain) rule = .replace handle ∧
          operation = Transaction.replaceRule order (sentBody rule) handle := by
  rw [ruleAdditions, mem_append, mem_map, mem_map]
  constructor
  · rintro (⟨rule, isAdded, rfl⟩ | ⟨⟨table, family, chain, handle, rule⟩, isReplaced, rfl⟩)
    · rw [diff, mem_rulesToAdd] at isAdded
      obtain ⟨declared, declaredMember, ruleMember, isAdd⟩ := isAdded
      refine ⟨declared, declaredMember, rule, ruleMember, Or.inl ⟨?_, rfl⟩⟩
      by_cases held : kernel.HasTable declared.key
      · exact isAdd held
      · rw [ruleAction_eq_add, rulesIn_of_not_hasTable wellFormed held]
        simp
    · rw [diff, mem_rulesToReplace] at isReplaced
      obtain ⟨declared, declaredMember, _, _, ruleMember, rfl, isReplace⟩ := isReplaced
      exact ⟨declared, declaredMember, rule, ruleMember, Or.inr ⟨handle, isReplace, rfl⟩⟩
  · rintro ⟨declared, declaredMember, rule, ruleMember, ⟨isAdd, rfl⟩ | ⟨handle, isReplace, rfl⟩⟩
    · refine Or.inl ⟨rule, ?_, rfl⟩
      rw [diff, mem_rulesToAdd]
      exact ⟨declared, declaredMember, ruleMember, fun _ => isAdd⟩
    · refine Or.inr ⟨(declared.name, declared.family, rule.chain, handle, rule), ?_, rfl⟩
      rw [diff, mem_rulesToReplace]
      refine ⟨declared, declaredMember, rfl, ?_, ruleMember, rfl, isReplace⟩
      by_contra missing
      rw [rulesIn_of_not_hasTable wellFormed missing] at isReplace
      obtain ⟨_, _, _, found, _⟩ := (ruleAction_eq_replace).mp isReplace
      cases (kernelByKey_eq_some found).1

theorem delete_mem_deletions (owner : TableKey) (reference : Reference) :
    .delete owner reference ∈ (diff order hashOrder config kernel).deletions ↔
      Lost config kernel owner reference := by
  have notRule : .delete owner reference ∉ (diff order hashOrder config kernel).ruleDeletions := by
    intro member
    obtain ⟨entry, _, isDelete⟩ := mem_map.mp member
    cases reference <;> cases isDelete
  have notElements : .delete owner reference ∉
      (diff order hashOrder config kernel).elementRemovals := by
    intro member
    obtain ⟨entry, _, isDelete⟩ := mem_map.mp member
    cases reference <;> cases isDelete
  simp only [deletions_diff, mem_append, notRule, notElements, false_or, mem_setDeletions
    wellFormed, mem_chainDeletions wellFormed, mem_flowtableDeletions wellFormed,
    BatchOp.delete_inj]
  cases reference <;> simp

/-- What the deletions are. -/
theorem mem_deletions
    (member : operation ∈ (diff order hashOrder config kernel).deletions) :
    (∃ family table chain handle, operation = .delRule family table chain handle) ∨
      (∃ family table set elements, operation = .delSetElements family table set elements) ∨
      ∃ owner reference, operation = .delete owner reference := by
  simp only [deletions_diff, mem_append, ruleDeletions,
    elementRemovals, mem_setDeletions wellFormed, mem_chainDeletions wellFormed,
    mem_flowtableDeletions wellFormed, mem_map] at member
  rcases member with (((⟨_, _, rfl⟩ | ⟨_, _, rfl⟩) | ⟨_, _, _, rfl⟩) |
    ⟨_, _, _, rfl⟩) | ⟨_, _, _, rfl⟩
  · exact Or.inl ⟨_, _, _, _, rfl⟩
  · exact Or.inr (Or.inl ⟨_, _, _, _, rfl⟩)
  · exact Or.inr (Or.inr ⟨_, _, rfl⟩)
  · exact Or.inr (Or.inr ⟨_, _, rfl⟩)
  · exact Or.inr (Or.inr ⟨_, _, rfl⟩)

theorem deletions_remove_iff (owner : TableKey) (reference : Reference) :
    (∀ operation ∈ (diff order hashOrder config kernel).deletions,
        ¬ operation.removes owner reference) ↔
      ¬ Lost config kernel owner reference := by
  rw [← delete_mem_deletions wellFormed]
  constructor
  · intro kept member
    exact kept _ member (Or.inr rfl)
  · rintro absent operation member (removesTable | rfl)
    · refine @batch_keeps_tables order hashOrder config kernel _ ?_ owner removesTable
      rw [batch_eq]
      simp only [mem_append]
      tauto
    · exact absent member

/-- The deletions leave what is not lost. -/
theorem resolves_afterDeletions (owner : TableKey) (reference : Reference) :
    ((diff order hashOrder config kernel).deletions.foldl
        Ruleset.effect kernel).Resolves owner reference ↔
      kernel.Resolves owner reference ∧ ¬ Lost config kernel owner reference := by
  have each : ∀ state : Ruleset, ∀ operation ∈ (diff order hashOrder config kernel).deletions,
      ((state.effect operation).Resolves owner reference ↔ state.Resolves owner reference ∧
          ¬ operation.removes owner reference) := by
    intro state operation member
    have makesNothing : ¬ operation.makes owner reference := by
      rcases mem_deletions wellFormed member with
        ⟨_, _, _, _, rfl⟩ | ⟨_, _, _, _, rfl⟩ | ⟨_, deleted, rfl⟩
      · cases reference <;> simp [BatchOp.makes]
      · cases reference <;> simp [BatchOp.makes]
      · cases reference <;> cases deleted <;>
          simp [BatchOp.makes, BatchOp.delete]
    rw [Ruleset.resolves_effect, or_iff_left makesNothing]
  rw [foldl_and_iff Ruleset.effect (Ruleset.Resolves · owner reference) each,
    deletions_remove_iff wellFormed]

end

/-- What the creations are. -/
theorem mem_objectAdditions {diff : NftablesDiff}
    (member : operation ∈ diff.tableCreations ++ diff.objectAdditions) :
    (∃ flags family name tableFlags, operation = .newTable flags family name tableFlags) ∨
      (∃ table family set setId, (table, family, set) ∈ diff.setsToAdd ∧
        operation = Transaction.addSet (buildSet table family set) setId) ∨
      (∃ family table set elements, operation = .newSetElements family table set elements) ∨
      ∃ table family chain, (table, family, chain) ∈ diff.chainChanges ∧
        operation = .newChain (chainMessage table family chain) := by
  simp only [tableCreations, objectAdditions, tableUpdates,
    setAdditions, elementAdditions, chainAdditions,
    mem_append, mem_map] at member
  rcases member with ⟨table, _, rfl⟩ | ((⟨entry, _, rfl⟩ |
    ⟨⟨⟨table, family, set⟩, setId⟩, isAdded, rfl⟩) | ⟨entry, _, rfl⟩) |
    ⟨⟨table, family, chain⟩, isChain, rfl⟩
  · exact Or.inl ⟨_, _, _, _, rfl⟩
  · exact Or.inl ⟨_, _, _, _, rfl⟩
  · exact Or.inr (Or.inl ⟨table, family, set, setId, fst_mem_of_mem_zipIdx isAdded, rfl⟩)
  · exact Or.inr (Or.inr (Or.inl ⟨_, _, _, _, rfl⟩))
  · exact Or.inr (Or.inr (Or.inr ⟨table, family, chain, isChain, rfl⟩))

theorem exists_makes_iff (diff : NftablesDiff) (owner : TableKey) (reference : Reference) :
    (∃ operation ∈ diff.tableCreations ++ diff.objectAdditions, operation.makes owner reference) ↔
      match reference with
      | .set name => ∃ set, (owner.2, owner.1, set) ∈ diff.setsToAdd ∧ set.name = name
      | .chain name => ∃ chain, (owner.2, owner.1, chain) ∈ diff.chainChanges ∧ chain.name = name
      | .flowtable _ => False := by
  constructor
  · rintro ⟨operation, member, makes⟩
    rcases mem_objectAdditions member with ⟨_, _, _, _, rfl⟩ |
      ⟨table, family, set, setId, isAdded, rfl⟩ | ⟨_, _, _, _, rfl⟩ |
      ⟨table, family, chain, isChain, rfl⟩ <;>
    cases reference <;>
    obtain ⟨_, isMessage, rfl, rfl⟩ := makes <;>
    cases isMessage
    · exact ⟨set, isAdded, rfl⟩
    · exact ⟨chain, isChain, rfl⟩
  · intro made
    cases reference with
    | set name =>
        obtain ⟨set, isAdded, rfl⟩ := made
        obtain ⟨setId, isIndexed⟩ : ∃ setId, ((owner.2, owner.1, set), setId) ∈
              diff.setsToAdd.zipIdx 1 := by
          obtain ⟨index, isAt⟩ := mem_iff_getElem?.mp isAdded
          exact ⟨1 + index, mk_add_mem_zipIdx_iff_getElem?.mpr isAt⟩
        refine ⟨_, mem_append_right _ (mem_append_left _
          (mem_append_left _ (mem_append_right _
            (mem_map_of_mem isIndexed)))), _, rfl, rfl, rfl⟩
    | chain name =>
        obtain ⟨chain, isChain, rfl⟩ := made
        exact ⟨_, mem_append_right _ (mem_append_right _
          (mem_map_of_mem isChain)), _, rfl, rfl, rfl⟩
    | flowtable name => exact made.elim

end Order

end Nlink.Nftables
