import Nlink.NftablesDiffLists

namespace Nlink.Nftables

open Foundation Netlink

/-!
# The batch of a diff

The batch that a diff is applied as, with each chain's message read off its
declaration, and what one operation does to the objects of a ruleset: which
operations can remove an object, and which create one.
-/

/-- The message for a declared chain, whether it is new or updated. -/
def chainMessage (table : String) (family : Family) (declared : DeclaredChain) : NewChain where
  flags := NLM_F_NEW
  family := family
  table := table
  name := declared.name
  chainType := declared.chainType
  hook :=
    declared.hook.map fun hook =>
      { hooknum := hook.toU32
        priority := (declared.priority.getD .filter).toI32
        dev := declared.device }
  policy := declared.policy.map Policy.toU32

theorem buildChain_eq_ok (table : String) (family : Family) (declared : DeclaredChain)
    (chain : Chain) :
    buildChain table family declared = .ok chain ↔
      ∃ tableValid : ValidName table, ∃ nameValid : ValidName declared.name, chain =
          { table := ⟨table, tableValid⟩
            name := ⟨declared.name, nameValid⟩
            family := family
            hook := declared.hook
            priority := declared.priority
            chainType := declared.chainType
            policy := declared.policy
            device := declared.device } := by
  by_cases tableValid : ValidName table
  · by_cases nameValid : ValidName declared.name
    · simp only [buildChain, Chain.new, TableName.new_of_valid tableValid, ChainName.new_of_valid
        nameValid, bind, pure, Except.bind, Except.pure, Option.or_none, Except.ok.injEq]
      constructor
      · intro isChain
        exact ⟨tableValid, nameValid, isChain.symm⟩
      · rintro ⟨_, _, isChain⟩
        exact isChain.symm
    · constructor
      · intro built
        cases checked : ChainName.new declared.name with
        | error _ =>
            simp [buildChain, Chain.new, TableName.new_of_valid tableValid,
              checked, bind, Except.bind] at built
        | ok name => exact absurd (ChainName.value_of_new checked ▸ name.valid) nameValid
      · rintro ⟨_, valid, _⟩
        exact absurd valid nameValid
  · constructor
    · intro built
      cases checked : TableName.new table with
      | error _ => simp [buildChain, Chain.new, checked, bind, Except.bind] at built
      | ok name => exact absurd (TableName.value_of_new checked ▸ name.valid) tableValid
    · rintro ⟨valid, _⟩
      exact absurd valid tableValid

namespace NftablesDiff

variable (order : ByteOrder)

/-- The chains that a diff adds and then those that it updates. -/
def chainChanges (diff : NftablesDiff) : List (String × Family × DeclaredChain) :=
  diff.chainsToAdd ++ diff.chainsToModify

/-- The names of the chains that a diff adds or updates are accepted. -/
def NamesValid (diff : NftablesDiff) : Prop :=
  ∀ entry ∈ diff.chainChanges, ValidName entry.1 ∧ ValidName entry.2.2.name

instance (diff : NftablesDiff) : Decidable diff.NamesValid :=
  inferInstanceAs (Decidable (∀ entry ∈ diff.chainChanges,
    ValidName entry.1 ∧ ValidName entry.2.2.name))

def chainAdditions (diff : NftablesDiff) : List BatchOp :=
  diff.chainChanges.map fun entry => .newChain (chainMessage entry.1 entry.2.1 entry.2.2)

/-- The batch, with the chains' messages read off their declarations. -/
def batch (diff : NftablesDiff) : List BatchOp :=
  diff.deletions ++ diff.tableAdditions ++ diff.chainAdditions ++
    diff.ruleAdditions order ++ diff.flowtableAdditions

theorem buildChains_eq_ok (entries : List (String × Family × DeclaredChain)) (chains : List Chain)
    (built :
      (entries.mapM fun (table, family, declared) =>
        buildChain table family declared) = .ok chains) :
    (∀ entry ∈ entries, ValidName entry.1 ∧ ValidName entry.2.2.name) ∧
      chains.map Transaction.addChain =
        entries.map fun entry =>
          .newChain (chainMessage entry.1 entry.2.1 entry.2.2) := by
  induction entries generalizing chains with
  | nil =>
      rw [List.mapM_nil] at built
      cases built
      simp
  | cons entry entries ih =>
      obtain ⟨table, family, declared⟩ := entry
      rw [List.mapM_cons] at built
      cases first : buildChain table family declared with
      | error _ => simp [first, bind, Except.bind] at built
      | ok chain =>
          cases rest : entries.mapM fun entry =>
              buildChain entry.1 entry.2.1 entry.2.2 with
          | error _ => simp [first, rest, bind, Except.bind] at built
          | ok others =>
              simp [first, rest, bind, Except.bind, pure, Except.pure] at built
              subst built
              obtain ⟨restValid, restSent⟩ := ih others rest
              obtain ⟨tableValid, nameValid, rfl⟩ :=
                (buildChain_eq_ok table family declared chain).mp first
              refine ⟨?_, ?_⟩
              · intro other member
                rcases List.mem_cons.mp member with rfl | member
                · exact ⟨tableValid, nameValid⟩
                · exact restValid other member
              · rw [List.map_cons, List.map_cons, restSent]
                rfl

theorem buildChains_ok (entries : List (String × Family × DeclaredChain))
    (valid : ∀ entry ∈ entries, ValidName entry.1 ∧ ValidName entry.2.2.name) :
    ∃ chains,
      (entries.mapM fun (table, family, declared) =>
        buildChain table family declared) = .ok chains := by
  induction entries with
  | nil => exact ⟨[], rfl⟩
  | cons entry entries ih =>
      obtain ⟨table, family, declared⟩ := entry
      obtain ⟨tableValid, nameValid⟩ := valid _ (List.mem_cons_self ..)
      obtain ⟨others, rest⟩ := ih fun entry member => valid entry (List.mem_cons_of_mem _ member)
      obtain ⟨chain, first⟩ : ∃ chain, buildChain table family declared = .ok chain :=
        ⟨_, (buildChain_eq_ok table family declared _).mpr ⟨tableValid, nameValid, rfl⟩⟩
      refine ⟨chain :: others, ?_⟩
      rw [List.mapM_cons]
      simp only [first, bind, Except.bind, rest, pure, Except.pure]

theorem batch_of_isEmpty {diff : NftablesDiff} (nothing : diff.isEmpty = true) :
    diff.NamesValid ∧ diff.batch order = [] := by
  simp only [isEmpty, Bool.and_eq_true, List.isEmpty_iff] at nothing
  obtain ⟨⟨⟨⟨⟨⟨⟨⟨⟨⟨⟨⟨⟨⟨tablesToAdd, tablesToModify⟩, tablesToDelete⟩,
    chainsToAdd⟩, chainsToModify⟩, chainsToDelete⟩, rulesToAdd⟩,
    rulesToDelete⟩, rulesToReplace⟩, flowtablesToAdd⟩, flowtablesToDelete⟩,
    setsToAdd⟩, setsToDelete⟩, setElementsToAdd⟩, setElementsToRemove⟩ :=
    nothing
  refine ⟨?_, ?_⟩
  · simp [NamesValid, chainChanges, chainsToAdd, chainsToModify]
  · simp [batch, deletions, tableAdditions, chainAdditions, chainChanges, ruleAdditions,
      flowtableAdditions, tablesToAdd, tablesToModify, tablesToDelete, chainsToAdd, chainsToModify,
      chainsToDelete, rulesToAdd, rulesToDelete, rulesToReplace, flowtablesToAdd,
      flowtablesToDelete, setsToAdd, setsToDelete, setElementsToAdd, setElementsToRemove]

/-- A difference is applied as its batch when its names are valid. -/
theorem apply_eq_ok (diff : NftablesDiff) (operations : List BatchOp) :
    diff.apply order = .ok operations ↔ diff.NamesValid ∧ operations = diff.batch order := by
  rw [apply]
  by_cases nothing : diff.changeCount = 0
  · obtain ⟨valid, empty⟩ := batch_of_isEmpty order ((changeCount_eq_zero diff).mp nothing)
    rw [if_pos nothing, empty, Except.ok.injEq]
    exact ⟨fun isEmpty => ⟨valid, isEmpty.symm⟩, fun both => both.2.symm⟩
  · rw [if_neg nothing]
    constructor
    · intro built
      cases chains : (diff.chainsToAdd ++ diff.chainsToModify).mapM
          fun entry => buildChain entry.1 entry.2.1 entry.2.2 with
      | error _ => simp [transaction, chains, bind, Except.bind] at built
      | ok chains' =>
          simp only [transaction, chains, bind, Except.bind, pure, Except.pure,
            Except.ok.injEq] at built
          obtain ⟨valid, sent⟩ := buildChains_eq_ok _ _ chains
          refine ⟨valid, ?_⟩
          rw [← built, batch, chainAdditions, chainChanges, sent]
    · rintro ⟨valid, rfl⟩
      obtain ⟨chains, built⟩ := buildChains_ok _ valid
      have sent := (buildChains_eq_ok _ _ built).2
      simp only [chainChanges] at built sent
      simp only [transaction, built, bind, Except.bind, pure, Except.pure,
        sent, batch, chainAdditions, chainChanges]

end NftablesDiff

/-- Whether an operation takes a rule out of the ruleset. -/
def BatchOp.drops (operation : BatchOp) (rule : RuleInfo) : Bool :=
  match operation with
  | .delRule family table chain handle => rule.isIn (family, table) chain ∧ rule.handle = handle
  | .delChain family table name => rule.isIn (family, table) name
  | .delTable family name => rule.owner = (family, name)
  | _ => false

/-- An operation makes sure that a table is there. -/
def BatchOp.makesTable (operation : BatchOp) (owner : TableKey) : Prop :=
  ∃ flags tableFlags, operation = .newTable flags owner.1 owner.2 tableFlags

/-- An operation makes sure that an object of a table is there. -/
def BatchOp.makes (operation : BatchOp) (owner : TableKey) : Reference → Prop
  | .set name =>
      ∃ message, operation = .newSet message ∧ message.owner = owner ∧ message.name = name
  | .chain name =>
      ∃ message, operation = .newChain message ∧ message.owner = owner ∧ message.name = name
  | .flowtable name =>
      ∃ message, operation = .newFlowtable message ∧ message.owner = owner ∧ message.name = name

def BatchOp.removesTable (operation : BatchOp) (owner : TableKey) : Prop :=
  operation = .delTable owner.1 owner.2

/-- The operation that deletes an object of a table. -/
def BatchOp.delete (owner : TableKey) : Reference → BatchOp
  | .set name => .delSet owner.1 owner.2 name
  | .chain name => .delChain owner.1 owner.2 name
  | .flowtable name => .delFlowtable owner.1 owner.2 name

/-- An operation removes an object of a table, by itself or with the table. -/
def BatchOp.removes (operation : BatchOp) (owner : TableKey) (reference : Reference) : Prop :=
  operation.removesTable owner ∨ operation = .delete owner reference

/-- Whether an operation is about a rule that is new or replaced. -/
def BatchOp.isNewRule : BatchOp → Bool
  | .newRule _ => true
  | _ => false

namespace Ruleset

variable (ruleset : Ruleset)

theorem rules_effect {operation : BatchOp} (noRule : operation.isNewRule = false) :
    (ruleset.effect operation).rules = ruleset.rules.filter fun rule => !operation.drops rule := by
  cases operation with
  | newRule message => cases noRule
  | _ => simp [effect, BatchOp.drops]

/-- A batch without new rules keeps the rules that it does not drop. -/
theorem rules_commit {operations : List BatchOp}
    (noRules : ∀ operation ∈ operations, operation.isNewRule = false) :
    (ruleset.commit operations).rules =
      ruleset.rules.filter fun rule =>
        operations.all fun operation => !operation.drops rule := by
  rw [commit, ← foldl_filter]
  exact foldl_view (fun state operation member => rules_effect state (noRules operation member))
    ruleset

theorem exists_mem_filter_iff {items : List α} {property : α → Prop} {keeps : α → Bool}
    {kept : Prop} (alike : ∀ item, property item → (keeps item = true ↔ kept)) :
    (∃ item ∈ items.filter keeps, property item) ↔ (∃ item ∈ items, property item) ∧ kept := by
  simp only [List.mem_filter, and_assoc]
  constructor
  · rintro ⟨item, member, isKept, has⟩
    exact ⟨⟨item, member, has⟩, (alike item has).mp isKept⟩
  · rintro ⟨⟨item, member, has⟩, isKept⟩
    exact ⟨item, member, (alike item has).mpr isKept, has⟩

section Effects

attribute [local simp] BatchOp.removes BatchOp.removesTable BatchOp.delete BatchOp.makes
  BatchOp.makesTable

theorem hasTable_effect (owner : TableKey) (operation : BatchOp) :
    (ruleset.effect operation).HasTable owner ↔
      (ruleset.HasTable owner ∧ ¬ operation.removesTable owner) ∨ operation.makesTable owner := by
  cases operation with
  | newTable flags family name tableFlags =>
      have held : (ruleset.effect (.newTable flags family name tableFlags)).HasTable owner ↔
            ruleset.HasTable owner ∨ (family, name) = owner :=
        exists_upsert_iff (by exact fun _ => Iff.rfl)
          (by
            intro table isKey
            rw [of_decide_eq_true isKey]
            rfl)
      rw [held]
      simp [Prod.ext_iff]
  | delTable family name =>
      have held : (ruleset.effect (.delTable family name)).HasTable owner ↔
            ruleset.HasTable owner ∧ ¬ (family, name) = owner :=
        exists_mem_filter_iff fun table isKey => by rw [decide_eq_true_eq, isKey, ne_comm]
      rw [held]
      simp [Prod.ext_iff]
  | newRule message => simp [effect, newRule, HasTable]
  | _ => simp [effect, HasTable]

section Objects

variable {ownerOf : α → TableKey}
variable {nameOf : α → String}
variable {objects : List α}
variable {owner : TableKey}
variable {name : String}

theorem exists_object_upsert {madeOwner : TableKey} {madeName : String} {update : α → α} {fresh : α}
    (updated : ∀ object, ownerOf (update object) = ownerOf object ∧
        nameOf (update object) = nameOf object)
    (isFresh : ownerOf fresh = madeOwner ∧ nameOf fresh = madeName) :
    (∃ object ∈ upsert (fun object => ownerOf object = madeOwner ∧ nameOf object = madeName)
          update fresh objects,
      ownerOf object = owner ∧ nameOf object = name) ↔
      (∃ object ∈ objects, ownerOf object = owner ∧ nameOf object = name) ∨
        madeOwner = owner ∧ madeName = name := by
  rw [← isFresh.1, ← isFresh.2]
  refine exists_upsert_iff ?_ ?_
  · intro object
    rw [(updated object).1, (updated object).2]
  · intro object isNamed
    obtain ⟨isOwner, isName⟩ := of_decide_eq_true isNamed
    rw [isOwner, isName]

theorem exists_object_of_table {deleted : TableKey} :
    (∃ object ∈ objects.filter fun object => ownerOf object ≠ deleted,
      ownerOf object = owner ∧ nameOf object = name) ↔
      (∃ object ∈ objects, ownerOf object = owner ∧ nameOf object = name) ∧ ¬ deleted = owner :=
  exists_mem_filter_iff fun object isNamed => by rw [decide_eq_true_eq, isNamed.1, ne_comm]

theorem exists_object_of_deleted {deletedOwner : TableKey} {deletedName : String} :
    (∃ object ∈ objects.filter fun object =>
        ¬ (ownerOf object = deletedOwner ∧ nameOf object = deletedName),
      ownerOf object = owner ∧ nameOf object = name) ↔
      (∃ object ∈ objects, ownerOf object = owner ∧ nameOf object = name) ∧
        ¬ (deletedOwner = owner ∧ deletedName = name) :=
  exists_mem_filter_iff fun object isNamed => by
    rw [decide_eq_true_eq, isNamed.1, isNamed.2, @eq_comm _ owner, @eq_comm _ name]

theorem exists_object_map {change : α → α}
    (changed : ∀ object, ownerOf (change object) = ownerOf object ∧
        nameOf (change object) = nameOf object) :
    (∃ object ∈ objects.map change, ownerOf object = owner ∧ nameOf object = name) ↔
      ∃ object ∈ objects, ownerOf object = owner ∧ nameOf object = name := by
  constructor
  · rintro ⟨_, member, isNamed⟩
    obtain ⟨object, objectMember, rfl⟩ := List.mem_map.mp member
    rw [(changed object).1, (changed object).2] at isNamed
    exact ⟨object, objectMember, isNamed⟩
  · rintro ⟨object, member, isNamed⟩
    refine ⟨_, List.mem_map.mpr ⟨object, member, rfl⟩, ?_⟩
    rw [(changed object).1, (changed object).2]
    exact isNamed

end Objects

theorem hasChain_effect (owner : TableKey) (name : String) (operation : BatchOp) :
    (ruleset.effect operation).HasChain owner name ↔
      (ruleset.HasChain owner name ∧ ¬ operation.removes owner (.chain name)) ∨
        operation.makes owner (.chain name) := by
  cases operation with
  | newChain message =>
      have held : (ruleset.effect (.newChain message)).HasChain owner name ↔
            ruleset.HasChain owner name ∨ message.owner = owner ∧ message.name = name :=
        exists_object_upsert (fun _ => ⟨rfl, rfl⟩) ⟨rfl, rfl⟩
      rw [held]
      simp
  | delTable family table =>
      have held : (ruleset.effect (.delTable family table)).HasChain owner name ↔
            ruleset.HasChain owner name ∧ ¬ (family, table) = owner :=
        exists_object_of_table
      rw [held]
      simp [Prod.ext_iff]
  | delChain family table other =>
      have held : (ruleset.effect (.delChain family table other)).HasChain owner name ↔
            ruleset.HasChain owner name ∧ ¬ ((family, table) = owner ∧ other = name) :=
        exists_object_of_deleted
      rw [held]
      simp [Prod.ext_iff, and_assoc]
  | newRule message => simp [effect, newRule, HasChain]
  | _ => simp [effect, HasChain]

/-- A set is held after an operation that makes it, and after one that does
not remove it if it was held before. -/
theorem hasSet_effect (owner : TableKey) (name : String) (operation : BatchOp) :
    (ruleset.effect operation).HasSet owner name ↔
      (ruleset.HasSet owner name ∧ ¬ operation.removes owner (.set name)) ∨
        operation.makes owner (.set name) := by
  cases operation with
  | newSet message =>
      have held : (ruleset.effect (.newSet message)).HasSet owner name ↔ ruleset.HasSet owner name ∨
              message.owner = owner ∧ message.name = name :=
        exists_object_upsert (fun _ => ⟨rfl, rfl⟩) ⟨rfl, rfl⟩
      rw [held]
      simp
  | delTable family table =>
      have held : (ruleset.effect (.delTable family table)).HasSet owner name ↔
            ruleset.HasSet owner name ∧ ¬ (family, table) = owner :=
        exists_object_of_table
      rw [held]
      simp [Prod.ext_iff]
  | delSet family table other =>
      have held : (ruleset.effect (.delSet family table other)).HasSet owner name ↔
            ruleset.HasSet owner name ∧ ¬ ((family, table) = owner ∧ other = name) :=
        exists_object_of_deleted
      rw [held]
      simp [Prod.ext_iff, and_assoc]
  | newSetElements family table other elements =>
      have held : (ruleset.effect (.newSetElements family table other elements)).HasSet owner name ↔
            ruleset.HasSet owner name :=
        exists_object_map (by
          intro set
          split <;> exact ⟨rfl, rfl⟩)
      rw [held]
      simp
  | delSetElements family table other elements =>
      have held : (ruleset.effect (.delSetElements family table other elements)).HasSet owner name ↔
            ruleset.HasSet owner name :=
        exists_object_map (by
          intro set
          split <;> exact ⟨rfl, rfl⟩)
      rw [held]
      simp
  | newRule message => simp [effect, newRule, HasSet]
  | _ => simp [effect, HasSet]

theorem hasFlowtable_effect (owner : TableKey) (name : String) (operation : BatchOp) :
    (ruleset.effect operation).HasFlowtable owner name ↔
      (ruleset.HasFlowtable owner name ∧ ¬ operation.removes owner (.flowtable name)) ∨
        operation.makes owner (.flowtable name) := by
  cases operation with
  | newFlowtable message =>
      have held : (ruleset.effect (.newFlowtable message)).HasFlowtable owner name ↔
            ruleset.HasFlowtable owner name ∨ message.owner = owner ∧ message.name = name :=
        exists_object_upsert (fun _ => ⟨rfl, rfl⟩) ⟨rfl, rfl⟩
      rw [held]
      simp
  | delTable family table =>
      have held : (ruleset.effect (.delTable family table)).HasFlowtable owner name ↔
            ruleset.HasFlowtable owner name ∧ ¬ (family, table) = owner :=
        exists_object_of_table
      rw [held]
      simp [Prod.ext_iff]
  | delFlowtable family table other =>
      have held : (ruleset.effect (.delFlowtable family table other)).HasFlowtable owner name ↔
            ruleset.HasFlowtable owner name ∧ ¬ ((family, table) = owner ∧ other = name) :=
        exists_object_of_deleted
      rw [held]
      simp [Prod.ext_iff, and_assoc]
  | newRule message => simp [effect, newRule, HasFlowtable]
  | _ => simp [effect, HasFlowtable]

/-- What an operation does to the objects that references resolve to. -/
theorem resolves_effect (owner : TableKey) (reference : Reference) (operation : BatchOp) :
    (ruleset.effect operation).Resolves owner reference ↔
      (ruleset.Resolves owner reference ∧ ¬ operation.removes owner reference) ∨
        operation.makes owner reference := by
  cases reference with
  | set name => exact hasSet_effect ruleset owner name operation
  | chain name => exact hasChain_effect ruleset owner name operation
  | flowtable name => exact hasFlowtable_effect ruleset owner name operation

end Effects

end Ruleset

end Nlink.Nftables
