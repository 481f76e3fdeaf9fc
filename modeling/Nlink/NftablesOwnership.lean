import Mathlib.Data.List.Perm.Basic
import Nlink.NftablesDiffLists

namespace Nlink.Nftables

open Foundation Netlink List

/-!
# What a diff deletes

A diff is meant to delete neither what is declared nor what is foreign.  Each
declaration of a table is compared with the kernel by itself, so a table that
is declared twice loses what one of the declarations leaves out.  A diff keeps
what is declared exactly when the declarations of each table agree on what the
kernel holds; it always keeps what is foreign.
-/

def Declares (config : NftablesConfig) (owner : TableKey) : Prop :=
  ∃ declared ∈ config.tables, declared.key = owner

/-- Every operation of a diff names a declared table. -/
structure NamesDeclared (config : NftablesConfig) (diff : NftablesDiff) : Prop where
  tablesToAdd : ∀ table ∈ diff.tablesToAdd, Declares config table.key
  tablesToModify : ∀ family name flags, (family, name, flags) ∈ diff.tablesToModify →
      Declares config (family, name)
  tablesToDelete : ∀ family name, (family, name) ∈ diff.tablesToDelete →
    Declares config (family, name)
  chainsToAdd : ∀ table family chain, (table, family, chain) ∈ diff.chainsToAdd →
      Declares config (family, table)
  chainsToModify : ∀ table family chain, (table, family, chain) ∈ diff.chainsToModify →
      Declares config (family, table)
  chainsToDelete : ∀ table family name, (table, family, name) ∈ diff.chainsToDelete →
      Declares config (family, table)
  rulesToAdd : ∀ rule ∈ diff.rulesToAdd, Declares config (rule.family, rule.table)
  rulesToDelete : ∀ table family chain handle, (table, family, chain, handle) ∈ diff.rulesToDelete →
      Declares config (family, table)
  rulesToReplace : ∀ table family chain handle rule,
    (table, family, chain, handle, rule) ∈ diff.rulesToReplace → Declares config (family, table)
  flowtablesToAdd : ∀ flowtable ∈ diff.flowtablesToAdd,
    Declares config (flowtable.family, flowtable.table)
  flowtablesToDelete : ∀ family table name, (family, table, name) ∈ diff.flowtablesToDelete →
      Declares config (family, table)
  setsToAdd : ∀ table family set,
    (table, family, set) ∈ diff.setsToAdd → Declares config (family, table)
  setsToDelete : ∀ table family name, (table, family, name) ∈ diff.setsToDelete →
      Declares config (family, table)
  setElementsToAdd : ∀ table family set elements,
    (table, family, set, elements) ∈ diff.setElementsToAdd → Declares config (family, table)
  setElementsToRemove : ∀ table family set elements,
    (table, family, set, elements) ∈ diff.setElementsToRemove → Declares config (family, table)

/-- No deletion of a diff names what is declared. -/
structure KeepsDeclared (config : NftablesConfig) (kernel : Ruleset)
    (diff : NftablesDiff) : Prop where
  tables : ∀ declared ∈ config.tables, (declared.family, declared.name) ∉ diff.tablesToDelete
  chains : ∀ declared ∈ config.tables, ∀ chain ∈ declared.chains,
    (declared.name, declared.family, chain.name) ∉ diff.chainsToDelete
  sets : ∀ declared ∈ config.tables, ∀ set ∈ declared.sets,
    (declared.name, declared.family, set.name) ∉ diff.setsToDelete
  flowtables : ∀ declared ∈ config.tables, ∀ flowtable ∈ declared.flowtables,
      (declared.family, declared.name, flowtable.name) ∉ diff.flowtablesToDelete
  rules : ∀ declared ∈ config.tables, ∀ rule ∈ declared.rules, ∀ key, rule.handleKey = some key →
      ∀ current ∈ kernel.rulesIn declared.key rule.chain, current.comment = some key →
          (declared.name, declared.family, rule.chain, current.handle) ∉ diff.rulesToDelete
  elements : ∀ declared ∈ config.tables, ∀ set ∈ declared.sets,
    ∀ element ∈ set.elements, ∀ elements, (declared.name, declared.family, set.name, elements) ∈
          diff.setElementsToRemove →
        element ∉ elements

/-- A rule without a key in its user data is not deleted or replaced. -/
structure KeepsForeign (kernel : Ruleset) (diff : NftablesDiff) : Prop where
  deleted : ∀ table family chain handle, (table, family, chain, handle) ∈ diff.rulesToDelete →
      ∀ current ∈ kernel.rules, current.owner = (family, table) → current.handle = handle →
          current.comment ≠ none
  replaced : ∀ table family chain handle rule,
    (table, family, chain, handle, rule) ∈ diff.rulesToReplace → ∀ current ∈ kernel.rules,
        current.owner = (family, table) → current.handle = handle → current.comment ≠ none

/-- Ownership is respected: what is declared and what is foreign is kept, and
without a purge only declared tables are named. -/
structure RespectsOwnership (config : NftablesConfig) (kernel : Ruleset)
    (purgeTables : Bool) (diff : NftablesDiff) : Prop where
  declared : KeepsDeclared config kernel diff
  foreign : KeepsForeign kernel diff
  named : purgeTables = false → NamesDeclared config diff

/-- Of two declarations of one table, the first declares the chains, sets and
flowtables that the second declares and the kernel holds. -/
structure CoversObjects (kernel : Ruleset) (first second : DeclaredTable) : Prop where
  chains : ∀ chain ∈ second.chains, kernel.HasChain second.key chain.name →
    ∃ other ∈ first.chains, other.name = chain.name
  sets : ∀ set ∈ second.sets, kernel.HasSet second.key set.name →
    ∃ other ∈ first.sets, other.name = set.name
  flowtables : ∀ flowtable ∈ second.flowtables, kernel.HasFlowtable second.key flowtable.name →
      ∃ other ∈ first.flowtables, other.name = flowtable.name

/-- Of two declarations of one table, the first declares what the second
declares and the kernel holds. -/
structure Covers (kernel : Ruleset) (first second : DeclaredTable) : Prop
    extends CoversObjects kernel first second where
  rules : ∀ rule ∈ second.rules, ∀ key, rule.handleKey = some key →
    (∃ current ∈ kernel.rulesIn second.key rule.chain, current.comment = some key) →
    Touches first rule.chain → DeclaresKey first rule.chain key
  elements : ∀ set ∈ second.sets, kernel.HasSet second.key set.name →
    ∀ other ∈ first.sets, other.name = set.name → ∀ element ∈ set.elements,
        element ∈ kernel.listSetElements second.key set.name → element ∈ other.elements

/-- The declarations of each table that the kernel holds agree on what it holds
in the table. -/
def DeclarationsAgree (config : NftablesConfig) (kernel : Ruleset) : Prop :=
  ∀ first ∈ config.tables, ∀ second ∈ config.tables,
    first.key = second.key → kernel.HasTable first.key → Covers kernel first second

theorem SetElement.mem_iff_key {element : SetElement} {elements : List SetElement} :
    element.key ∈ elements.map SetElement.key ↔ element ∈ elements := by
  constructor
  · intro member
    obtain ⟨other, otherMember, sameKey⟩ := mem_map.mp member
    cases element
    cases other
    cases sameKey
    exact otherMember
  · exact mem_map_of_mem

section Ownership

variable {order : ByteOrder}
variable {hashOrder : HashOrder}
variable {config : NftablesConfig}
variable {kernel : Ruleset}
variable {purgeTables : Bool}

theorem keepsForeign_diff (wellFormed : kernel.WellFormed) : KeepsForeign kernel
      (diffWithOptions order hashOrder config kernel purgeTables) where
  deleted := by
    intro table family chain handle isDeleted current member owned isHandle
    rw [mem_rulesToDelete] at isDeleted
    obtain ⟨declared, _, sameKey, _, deleted, deletedMember, deletedHandle, _,
      key, isKey, _⟩ := isDeleted
    rw [Ruleset.mem_rulesIn] at deletedMember
    have same : current = deleted :=
      wellFormed.eq_of_handle member deletedMember.1
        (owned.trans (sameKey.symm.trans deletedMember.2.1.symm))
        (isHandle.trans deletedHandle.symm)
    rw [same, isKey]
    exact Option.some_ne_none key
  replaced := by
    intro table family chain handle rule isReplaced current member owned isHandle
    rw [mem_rulesToReplace] at isReplaced
    obtain ⟨declared, _, sameKey, _, _, _, isReplace⟩ := isReplaced
    obtain ⟨key, replaced, _, found, _, replacedHandle⟩ := (ruleAction_eq_replace).mp isReplace
    obtain ⟨replacedMember, isKey⟩ := kernelByKey_eq_some found
    rw [Ruleset.mem_rulesIn] at replacedMember
    have same : current = replaced :=
      wellFormed.eq_of_handle member replacedMember.1
        (owned.trans (sameKey.symm.trans replacedMember.2.1.symm))
        (isHandle.trans replacedHandle.symm)
    rw [same, isKey]
    exact Option.some_ne_none key

theorem declares_of_exists {key : TableKey} {P : DeclaredTable → Prop}
    (found : ∃ declared ∈ config.tables, declared.key = key ∧ P declared) :
    ∃ declared ∈ config.tables, declared.key = key := by
  obtain ⟨declared, member, sameKey, _⟩ := found
  exact ⟨declared, member, sameKey⟩

/-- Without a purge, every operation is in a declared table. -/
theorem namesDeclared_diff : NamesDeclared config
      (diffWithOptions order hashOrder config kernel false) where
  tablesToAdd := by
    intro table member
    rw [tablesToAdd_diff, mem_filter] at member
    exact ⟨table, member.1, rfl⟩
  tablesToModify _ _ _ member := declares_of_exists (mem_tablesToModify.mp member)
  tablesToDelete := by
    intro family name member
    rw [mem_tablesToDelete] at member
    cases member.1
  chainsToAdd _ _ _ member := declares_of_exists (mem_chainsToAdd.mp member)
  chainsToModify _ _ _ member := declares_of_exists (mem_chainsToModify.mp member)
  chainsToDelete _ _ _ member := declares_of_exists (mem_chainsToDelete.mp member)
  rulesToAdd := by
    intro rule member
    rw [mem_rulesToAdd] at member
    obtain ⟨declared, declaredMember, ruleMember, _⟩ := member
    obtain ⟨sameTable, sameFamily⟩ := declared.rulesOwned rule ruleMember
    exact ⟨declared, declaredMember, by rw [sameTable, sameFamily, DeclaredTable.key]⟩
  rulesToDelete _ _ _ _ member := declares_of_exists (mem_rulesToDelete.mp member)
  rulesToReplace _ _ _ _ _ member := declares_of_exists (mem_rulesToReplace.mp member)
  flowtablesToAdd := by
    intro flowtable member
    rw [mem_flowtablesToAdd] at member
    obtain ⟨declared, declaredMember, flowtableMember, _⟩ := member
    obtain ⟨sameTable, sameFamily⟩ := declared.flowtablesOwned flowtable flowtableMember
    exact ⟨declared, declaredMember, by rw [sameTable, sameFamily, DeclaredTable.key]⟩
  flowtablesToDelete _ _ _ member := declares_of_exists (mem_flowtablesToDelete.mp member)
  setsToAdd _ _ _ member := declares_of_exists (mem_setsToAdd.mp member)
  setsToDelete _ _ _ member := declares_of_exists (mem_setsToDelete.mp member)
  setElementsToAdd _ _ _ _ member := owner_of_mem_setElementsToAdd member
  setElementsToRemove _ _ _ _ member := declares_of_exists (mem_setElementsToRemove.mp member)

/-- Declarations that agree lose nothing to each other. -/
theorem keepsDeclared_of_agree (wellFormed : kernel.WellFormed)
    (agree : DeclarationsAgree config kernel) :
    KeepsDeclared config kernel (diffWithOptions order hashOrder config kernel purgeTables) where
  tables := by
    intro declared member isDeleted
    rw [mem_tablesToDelete] at isDeleted
    exact isDeleted.2.2 declared member rfl
  chains := by
    intro second secondMember chain chainMember isDeleted
    rw [mem_chainsToDelete] at isDeleted
    obtain ⟨first, firstMember, sameKey, held, chainHeld, undeclared⟩ := isDeleted
    have same : first.key = second.key := sameKey
    obtain ⟨other, otherMember, sameName⟩ :=
      (agree first firstMember second secondMember same held).chains chain
        chainMember (same ▸ chainHeld)
    exact undeclared other otherMember sameName
  sets := by
    intro second secondMember set setMember isDeleted
    rw [mem_setsToDelete] at isDeleted
    obtain ⟨first, firstMember, sameKey, held, setHeld, undeclared⟩ := isDeleted
    have same : first.key = second.key := sameKey
    obtain ⟨other, otherMember, sameName⟩ :=
      (agree first firstMember second secondMember same held).sets set setMember (same ▸ setHeld)
    exact undeclared other otherMember sameName
  flowtables := by
    intro second secondMember flowtable flowtableMember isDeleted
    rw [mem_flowtablesToDelete] at isDeleted
    obtain ⟨first, firstMember, sameKey, held, flowtableHeld, undeclared⟩ := isDeleted
    have same : first.key = second.key := sameKey
    obtain ⟨other, otherMember, sameName⟩ :=
      (agree first firstMember second secondMember same held).flowtables
        flowtable flowtableMember (same ▸ flowtableHeld)
    exact undeclared other otherMember sameName
  rules := by
    intro second secondMember rule ruleMember key isKey current currentMember currentKey isDeleted
    rw [mem_rulesToDelete] at isDeleted
    obtain ⟨first, firstMember, sameKey, held, deleted, deletedMember,
      sameHandle, touches, deletedKey, isDeletedKey, undeclared⟩ := isDeleted
    have same : first.key = second.key := sameKey
    rw [same, Ruleset.mem_rulesIn] at deletedMember
    have currentIn := Ruleset.mem_rulesIn.mp currentMember
    have sameRule : deleted = current :=
      wellFormed.eq_of_handle deletedMember.1 currentIn.1
        (deletedMember.2.1.trans currentIn.2.1.symm) sameHandle
    rw [sameRule, currentKey] at isDeletedKey
    cases isDeletedKey
    exact undeclared ((agree first firstMember second secondMember same held).rules rule
        ruleMember key isKey ⟨current, currentMember, currentKey⟩ touches)
  elements := by
    intro second secondMember set setMember element elementMember elements isRemoved removed
    rw [mem_setElementsToRemove] at isRemoved
    obtain ⟨first, firstMember, sameKey, held, other, otherMember, sameName,
      setHeld, _, rfl⟩ := isRemoved
    have same : first.key = second.key := sameKey
    rw [same] at removed setHeld
    rw [mem_filter, decide_eq_true_eq, SetElement.mem_iff_key] at removed
    exact removed.2 ((agree first firstMember second secondMember same held).elements set setMember
        setHeld other otherMember sameName element elementMember removed.1)

/-- Where nothing declared is lost, the declarations agree. -/
theorem agree_of_keepsDeclared
    (keeps : KeepsDeclared config kernel
      (diffWithOptions order hashOrder config kernel purgeTables)) :
    DeclarationsAgree config kernel := by
  intro first firstMember second secondMember same held
  refine ⟨⟨?_, ?_, ?_⟩, ?_, ?_⟩
  · intro chain chainMember chainHeld
    by_contra lost
    push Not at lost
    refine keeps.chains second secondMember chain chainMember ?_
    rw [mem_chainsToDelete]
    exact ⟨first, firstMember, same, held, same ▸ chainHeld, lost⟩
  · intro set setMember setHeld
    by_contra lost
    push Not at lost
    refine keeps.sets second secondMember set setMember ?_
    rw [mem_setsToDelete]
    exact ⟨first, firstMember, same, held, same ▸ setHeld, lost⟩
  · intro flowtable flowtableMember flowtableHeld
    by_contra lost
    push Not at lost
    refine keeps.flowtables second secondMember flowtable flowtableMember ?_
    rw [mem_flowtablesToDelete]
    exact ⟨first, firstMember, same, held, same ▸ flowtableHeld, lost⟩
  · rintro rule ruleMember key isKey ⟨current, currentMember, currentKey⟩ touches
    by_contra lost
    refine keeps.rules second secondMember rule ruleMember key isKey current
      currentMember currentKey ?_
    rw [mem_rulesToDelete]
    exact ⟨first, firstMember, same, held, current, same ▸ currentMember, rfl,
      touches, key, currentKey, lost⟩
  · intro set setMember setHeld other otherMember sameName element elementMember elementHeld
    by_contra lost
    have removed : element ∈
        (kernel.listSetElements first.key set.name).filter fun candidate =>
          candidate.key ∉ other.elements.map SetElement.key := by
      rw [mem_filter, decide_eq_true_eq, SetElement.mem_iff_key, same]
      exact ⟨elementHeld, lost⟩
    refine keeps.elements second secondMember set setMember element elementMember _ ?_ removed
    rw [mem_setElementsToRemove]
    exact ⟨first, firstMember, same, held, other, otherMember, sameName,
      same ▸ setHeld, ne_nil_of_mem removed, rfl⟩

variable (order hashOrder config kernel purgeTables)

/-- A diff respects ownership exactly when the declarations of each table agree
on what the kernel holds. -/
theorem respectsOwnership_iff (wellFormed : kernel.WellFormed) :
    RespectsOwnership config kernel purgeTables
        (diffWithOptions order hashOrder config kernel purgeTables) ↔
      DeclarationsAgree config kernel := by
  constructor
  · intro respects
    exact agree_of_keepsDeclared respects.declared
  · intro agree
    refine ⟨keepsDeclared_of_agree wellFormed agree, keepsForeign_diff wellFormed, ?_⟩
    intro noPurge
    rw [noPurge]
    exact namesDeclared_diff

end Ownership

theorem coversObjects_self (kernel : Ruleset) (declared : DeclaredTable) :
    CoversObjects kernel declared declared where
  chains := by
    intro chain member _
    exact ⟨chain, member, rfl⟩
  sets := by
    intro set member _
    exact ⟨set, member, rfl⟩
  flowtables := by
    intro flowtable member _
    exact ⟨flowtable, member, rfl⟩

theorem declarationsAgree_of_once {config : NftablesConfig} (once : config.DeclaredOnce)
    (setsOnce : ∀ declared ∈ config.tables, (declared.sets.map DeclaredSet.name).Nodup)
    (kernel : Ruleset) : DeclarationsAgree config kernel := by
  intro first firstMember second secondMember same _
  have one := once.eq_of_key firstMember secondMember same
  subst one
  refine ⟨coversObjects_self kernel first, ?_, ?_⟩
  · intro rule member key isKey _ _
    exact ⟨rule, member, rfl, isKey⟩
  · intro set setMember _ other otherMember sameName element elementMember _
    have sameSet := inj_on_of_nodup_map (setsOnce first firstMember) otherMember setMember sameName
    rw [sameSet]
    exact elementMember

/-- A kernel with a table and two chains, without rules. -/
def twoChainKernel : Ruleset where
  tables := [{ name := "filter", family := .inet, flags := 0 }]
  chains :=
    [NewChain.create
      { flags := 0, family := .inet, table := "filter", name := "input"
        chainType := none, hook := none, policy := none },
     NewChain.create
      { flags := 0, family := .inet, table := "filter", name := "forward"
        chainType := none, hook := none, policy := none }]
  rules := []
  sets := []
  flowtables := []
  nextHandle := 1

theorem twoChainKernel_wellFormed : twoChainKernel.WellFormed := by decide

/-- A table with the chain `input`. -/
def declaresInput (declared : DeclaredTable) : DeclaredTable :=
  declared.chain (.new "input")

/-- A table with the chain `forward`. -/
def declaresForward (declared : DeclaredTable) : DeclaredTable :=
  declared.chain (.new "forward")

/-- The table declared once, with one of its chains: the other is deleted and
ownership is respected, with and without a purge. -/
theorem respectsOwnership_iff_once :
    RespectsOwnership (NftablesConfig.new.table "filter" .inet declaresInput) twoChainKernel true
      (diffWithOptions .little .insertion (NftablesConfig.new.table "filter" .inet declaresInput)
        twoChainKernel true) :=
  (respectsOwnership_iff .little .insertion _ twoChainKernel true twoChainKernel_wellFormed).mpr
    (declarationsAgree_of_once (by decide) (by decide) twoChainKernel)

def twiceDeclared : NftablesConfig :=
  (NftablesConfig.new.table "filter" .inet declaresInput).table "filter" .inet declaresForward

/-- Each declaration has the other's chain deleted. -/
theorem twiceDeclared_loses_chains : twoChainKernel.WellFormed ∧
      ¬ RespectsOwnership twiceDeclared twoChainKernel false
        (diffWithOptions .little .insertion twiceDeclared twoChainKernel false) := by
  refine ⟨twoChainKernel_wellFormed, ?_⟩
  intro respects
  refine respects.declared.chains (declaresInput (.new "filter" .inet)) (mem_cons_self ..)
    (.new "input") (mem_cons_self ..) ?_
  rw [mem_chainsToDelete]
  refine ⟨declaresForward (.new "filter" .inet),
    mem_cons_of_mem _ (mem_cons_self ..), rfl, ?_, ?_, ?_⟩
  · decide
  · decide
  · decide

/-- Whatever order the hash maps yield their keys in, every list of the diff
holds the same entries as often. -/
theorem diff_perm_of_hashOrder (order : ByteOrder) (first second : HashOrder)
    (config : NftablesConfig) (kernel : Ruleset) (purgeTables : Bool)
    {list : NftablesDiff → List α} (isList : IsList list) :
    (list (diffWithOptions order first config kernel purgeTables)).Perm
      (list (diffWithOptions order second config kernel purgeTables)) := by
  have rules (declared : DeclaredTable) (currentRules : List RuleInfo) :
      (list (diffRules order first declared currentRules)).Perm
        (list (diffRules order second declared currentRules)) := by
    have arranged (keys : List String) : (first.arrange keys).Perm (second.arrange keys) :=
      (first.permutes keys).trans (second.permutes keys).symm
    rw [diffRules, diffRules, isList.ofAppend, isList.ofAppend]
    simp only [isList.concat]
    exact (((arranged _).map _).flatMap_right _).append
      ((((arranged _).filter _).map _).flatMap_right _)
  rw [list_diffWithOptions isList, list_diffWithOptions isList]
  refine (List.Perm.refl _).append (List.Perm.flatMap_left _ fun declared _ => ?_)
  split
  · exact (((List.Perm.refl _).append (rules _ _)).append (List.Perm.refl _)).append
      (List.Perm.refl _)
  · exact List.Perm.refl _

def HashOrder.reversed : HashOrder where
  arrange := List.reverse
  permutes := reverse_perm

/-- A table with a keyed rule in each of two chains. -/
def twoChains : NftablesConfig :=
  NftablesConfig.new.table "filter" .inet fun declared =>
    (declared.ruleKeyed "input" "in" id).ruleKeyed "forward" "through" id

theorem diff_perm_of_hashOrder_twoChains :
    (diffWithOptions .little .insertion twoChains twoChainKernel false).rulesToAdd.Perm
      (diffWithOptions .little .reversed twoChains twoChainKernel false).rulesToAdd :=
  @diff_perm_of_hashOrder _ .little .insertion .reversed twoChains twoChainKernel false
    NftablesDiff.rulesToAdd ⟨rfl, fun _ _ => rfl⟩

end Nlink.Nftables
