import Nlink.NftablesApply

namespace Nlink.Nftables

open Foundation Netlink List NftablesDiff

/-!
# What is in a diff

One lemma for each list of a diff says what is in it, in terms of the declared
tables and the kernel's ruleset.  What follows uses these lemmas and does not
unfold the comparison.
-/

/-- A list of a diff: the empty diff's is empty, and it is concatenated when
diffs are. -/
structure IsList (list : NftablesDiff → List α) : Prop where
  ofEmpty : list empty = []
  ofAppend : ∀ first second : NftablesDiff, list (first ++ second) = list first ++ list second

/-- A list of a concatenation is made of those of its parts. -/
theorem IsList.concat {list : NftablesDiff → List α} (isList : IsList list)
    (diffs : List NftablesDiff) : list (concat diffs) = diffs.flatMap list :=
  concat_list list isList.ofEmpty isList.ofAppend diffs

/-- What the changes of a diff are made to. -/
inductive ObjectKind where
  | table
  | chain
  | rule
  | flowtable
  | set

/-- The changes of a diff to one kind of object. -/
def NftablesDiff.only (diff : NftablesDiff) : ObjectKind → NftablesDiff
  | .table =>
      { empty with
        tablesToAdd := diff.tablesToAdd
        tablesToModify := diff.tablesToModify
        tablesToDelete := diff.tablesToDelete }
  | .chain =>
      { empty with
        chainsToAdd := diff.chainsToAdd
        chainsToModify := diff.chainsToModify
        chainsToDelete := diff.chainsToDelete }
  | .rule =>
      { empty with
        rulesToAdd := diff.rulesToAdd
        rulesToDelete := diff.rulesToDelete
        rulesToReplace := diff.rulesToReplace }
  | .flowtable =>
      { empty with
        flowtablesToAdd := diff.flowtablesToAdd
        flowtablesToDelete := diff.flowtablesToDelete }
  | .set =>
      { empty with
        setsToAdd := diff.setsToAdd
        setsToDelete := diff.setsToDelete
        setElementsToAdd := diff.setElementsToAdd
        setElementsToRemove := diff.setElementsToRemove }

/-- A list of a diff with the changes to one kind of object. -/
structure IsListOf (kind : ObjectKind) (list : NftablesDiff → List α) : Prop
    extends IsList list where
  ofOnly : ∀ diff : NftablesDiff, list diff = list (diff.only kind)

theorem IsListOf.nil {kind other : ObjectKind} {list : NftablesDiff → List α}
    (isList : IsListOf kind list) (different : kind ≠ other) (diff : NftablesDiff) :
    list (diff.only other) = [] := by
  have nothing : (diff.only other).only kind = empty := by
    cases kind <;> cases other <;> first | rfl | exact absurd rfl different
  rw [isList.ofOnly, nothing, isList.ofEmpty]

/-- A table declares something in a chain, or the chain. -/
def Touches (declared : DeclaredTable) (chain : String) : Prop :=
  (∃ rule ∈ declared.rules, rule.chain = chain) ∨
    ∃ declaredChain ∈ declared.chains, declaredChain.name = chain

def DeclaresKey (declared : DeclaredTable) (chain key : String) : Prop :=
  ∃ rule ∈ declared.rules, rule.chain = chain ∧ rule.handleKey = some key

instance (declared : DeclaredTable) (chain : String) : Decidable (Touches declared chain) :=
  inferInstanceAs (Decidable (_ ∨ _))

instance (declared : DeclaredTable) (chain key : String) :
    Decidable (DeclaresKey declared chain key) :=
  inferInstanceAs
    (Decidable (∃ rule ∈ declared.rules, rule.chain = chain ∧ rule.handleKey = some key))

section Lists

variable {order : ByteOrder}
variable {hashOrder : HashOrder}
variable {config : NftablesConfig}
variable {kernel : Ruleset}
variable {purgeTables : Bool}

theorem currentTable_isNone (declared : DeclaredTable) :
    (currentTable kernel declared).isNone = true ↔ ¬ kernel.HasTable declared.key := by
  simp [currentTable, Ruleset.listTables, Ruleset.HasTable]

theorem diffTable_eq {declared : DeclaredTable} (member : declared ∈ config.tables) :
    diffTable order hashOrder kernel (diffTables config kernel purgeTables).tablesToAdd declared =
      if kernel.HasTable declared.key then
        reconcile order hashOrder kernel declared
      else
        promote declared := by
  have isAdded :
      ((diffTables config kernel purgeTables).tablesToAdd.any
          fun table => table.key = declared.key) = true ↔
        ¬ kernel.HasTable declared.key := by
    rw [any_eq_true]
    simp only [diffTables, mem_filter, currentTable_isNone, decide_eq_true_eq]
    constructor
    · rintro ⟨table, ⟨_, missing⟩, sameKey⟩
      rw [← sameKey]
      exact missing
    · intro missing
      exact ⟨declared, ⟨member, missing⟩, rfl⟩
  rw [diffTable]
  by_cases held : kernel.HasTable declared.key
  · rw [if_neg (by rw [isAdded]; exact not_not.mpr held), if_pos held]
  · rw [if_pos (isAdded.mpr held), if_neg held]

section Kinds

variable {kind : ObjectKind} {list : NftablesDiff → List α}

theorem list_diffWithOptions (isList : IsList list) :
    list (diffWithOptions order hashOrder config kernel purgeTables) =
      list (diffTables config kernel purgeTables) ++
        config.tables.flatMap fun declared =>
          if kernel.HasTable declared.key then
            list (diffChains declared (kernel.listChainsIn declared.key)) ++
              list (diffRules order hashOrder declared (kernel.listRules declared.key)) ++
              list (diffFlowtables declared (kernel.listFlowtablesIn declared.key)) ++
              list (diffSets kernel declared)
          else
            list (contents declared) ++
              declared.sets.flatMap fun set => list (addSet declared set) := by
  rw [diffWithOptions, isList.ofAppend, isList.concat, flatMap_map]
  congr 1
  refine flatMap_congr fun declared member => ?_
  rw [diffTable_eq member]
  split
  · rw [reconcile, isList.ofAppend, isList.ofAppend, isList.ofAppend]
  · rw [promote, isList.ofAppend, isList.concat, flatMap_map]

section

variable (isList : IsListOf kind list)

include isList

theorem list_diffTables (different : kind ≠ .table) :
    list (diffTables config kernel purgeTables) = [] :=
  isList.nil different (diffTables ..)

theorem list_diffChains (different : kind ≠ .chain)
    (declared : DeclaredTable) (current : List ChainInfo) :
    list (diffChains declared current) = [] :=
  isList.nil different (diffChains ..)

theorem list_diffFlowtables (different : kind ≠ .flowtable)
    (declared : DeclaredTable) (current : List Flowtable) :
    list (diffFlowtables declared current) = [] :=
  isList.nil different (diffFlowtables ..)

theorem list_diffRules (different : kind ≠ .rule)
    (declared : DeclaredTable) (currentRules : List RuleInfo) :
    list (diffRules order hashOrder declared currentRules) = [] := by
  rw [diffRules, isList.ofAppend, isList.concat, isList.concat, flatMap_map, flatMap_map,
    append_eq_nil_iff, flatMap_eq_nil_iff, flatMap_eq_nil_iff]
  exact ⟨fun _ _ => isList.nil different (diffDeclaredChain ..),
    fun _ _ => isList.nil different (diffOtherChain ..)⟩

theorem list_addSet (different : kind ≠ .set) (declared : DeclaredTable) :
    (declared.sets.flatMap fun set => list (addSet declared set)) = [] :=
  flatMap_eq_nil_iff.mpr fun _ _ => isList.nil different (addSet ..)

theorem list_diffSets (different : kind ≠ .set)
    (declared : DeclaredTable) : list (diffSets kernel declared) = [] := by
  have noDeletions (deletions : List (String × Family × String)) :
      list { empty with setsToDelete := deletions } = [] :=
    isList.nil different { empty with setsToDelete := deletions }
  rw [diffSets, isList.ofAppend, isList.concat, flatMap_map, noDeletions, List.append_nil,
    flatMap_eq_nil_iff]
  intro set _
  split
  · exact isList.nil different (diffElements ..)
  · exact isList.nil different (addSet ..)

end

theorem tableList_diff (isList : IsListOf .table list) :
    list (diffWithOptions order hashOrder config kernel purgeTables) =
      list (diffTables config kernel purgeTables) := by
  have nothing (declared : DeclaredTable) : list (contents declared) = [] := by
    rw [isList.ofOnly]
    exact isList.ofEmpty
  simp [list_diffWithOptions isList.toIsList, nothing, list_diffChains isList, list_diffRules
    isList, list_diffFlowtables isList, list_diffSets isList, list_addSet isList]

theorem chainList_diff (isList : IsListOf .chain list) :
    list (diffWithOptions order hashOrder config kernel purgeTables) =
      config.tables.flatMap fun declared =>
        if kernel.HasTable declared.key then
          list (diffChains declared (kernel.listChainsIn declared.key))
        else
          list (contents declared) := by
  simp [list_diffWithOptions isList.toIsList, list_diffTables isList, list_diffRules isList,
    list_diffFlowtables isList, list_diffSets isList, list_addSet isList]

theorem flowtableList_diff (isList : IsListOf .flowtable list) :
    list (diffWithOptions order hashOrder config kernel purgeTables) =
      config.tables.flatMap fun declared =>
        if kernel.HasTable declared.key then
          list (diffFlowtables declared (kernel.listFlowtablesIn declared.key))
        else
          list (contents declared) := by
  simp [list_diffWithOptions isList.toIsList, list_diffTables isList, list_diffRules isList,
    list_diffChains isList, list_diffSets isList, list_addSet isList]

theorem setList_diff (isList : IsListOf .set list) :
    list (diffWithOptions order hashOrder config kernel purgeTables) =
      config.tables.flatMap fun declared =>
        if kernel.HasTable declared.key then
          list (diffSets kernel declared)
        else
          declared.sets.flatMap fun set => list (addSet declared set) := by
  have nothing (declared : DeclaredTable) : list (contents declared) = [] := by
    rw [isList.ofOnly]
    exact isList.ofEmpty
  simp [list_diffWithOptions isList.toIsList, nothing, list_diffTables isList, list_diffRules
    isList, list_diffChains isList, list_diffFlowtables isList]

theorem ruleList_diff (isList : IsListOf .rule list) :
    list (diffWithOptions order hashOrder config kernel purgeTables) =
      config.tables.flatMap fun declared =>
        if kernel.HasTable declared.key then
          list (diffRules order hashOrder declared (kernel.listRules declared.key))
        else
          list (contents declared) := by
  simp [list_diffWithOptions isList.toIsList, list_diffTables isList, list_diffChains isList,
    list_diffFlowtables isList, list_diffSets isList, list_addSet isList]

end Kinds

/-! ### Tables -/

/-- The tables to add. -/
theorem tablesToAdd_diff : (diffWithOptions order hashOrder config kernel purgeTables).tablesToAdd =
      config.tables.filter fun declared =>
        ¬ kernel.HasTable declared.key := by
  have isList : IsListOf .table tablesToAdd := ⟨⟨rfl, fun _ _ => rfl⟩, fun _ => rfl⟩
  rw [tableList_diff isList]
  refine filter_congr fun declared _ => ?_
  rw [← Bool.coe_iff_coe, currentTable_isNone, decide_eq_true_eq]

variable {family : Family} {name : String}

theorem mem_tablesToModify {flags : Nat} : (family, name, flags) ∈
        (diffWithOptions order hashOrder config kernel purgeTables).tablesToModify ↔
      ∃ declared ∈ config.tables, declared.key = (family, name) ∧ declared.flags = flags ∧
          ∃ current, currentTable kernel declared = some current ∧
            current.flags ≠ declared.flags := by
  have isList : IsListOf .table tablesToModify := ⟨⟨rfl, fun _ _ => rfl⟩, fun _ => rfl⟩
  rw [tableList_diff isList]
  · simp only [diffTables, mem_map, mem_filter, Option.any_eq_true,
      decide_eq_true_eq, Prod.mk.injEq, DeclaredTable.key]
    constructor
    · rintro ⟨declared, ⟨member, differs⟩, sameFamily, sameName, sameFlags⟩
      exact ⟨declared, member, ⟨sameFamily, sameName⟩, sameFlags, differs⟩
    · rintro ⟨declared, member, ⟨sameFamily, sameName⟩, sameFlags, differs⟩
      exact ⟨declared, ⟨member, differs⟩, sameFamily, sameName, sameFlags⟩

/-- Tables are deleted only by a purge. -/
theorem mem_tablesToDelete {name : String} : (family, name) ∈
        (diffWithOptions order hashOrder config kernel purgeTables).tablesToDelete ↔
      purgeTables = true ∧ kernel.HasTable (family, name) ∧
        ∀ declared ∈ config.tables, declared.key ≠ (family, name) := by
  have isList : IsListOf .table tablesToDelete := ⟨⟨rfl, fun _ _ => rfl⟩, fun _ => rfl⟩
  rw [tableList_diff isList]
  · cases purgeTables with
    | false => simp [diffTables]
    | true =>
        simp only [diffTables, if_true, mem_map, mem_filter, decide_eq_true_eq,
          Ruleset.HasTable, Ruleset.listTables, Table.key, Prod.mk.injEq]
        constructor
        · rintro ⟨current, ⟨held, undeclared⟩, rfl, rfl⟩
          refine ⟨trivial, ⟨current, held, rfl, rfl⟩, ?_⟩
          intro declared member sameKey
          exact undeclared ⟨declared, member, sameKey⟩
        · rintro ⟨_, ⟨current, held, rfl, rfl⟩, undeclared⟩
          refine ⟨current, ⟨held, ?_⟩, rfl, rfl⟩
          rintro ⟨declared, member, sameKey⟩
          exact undeclared declared member sameKey

/-! ### Chains -/

theorem find_listChainsIn_isNone (owner : TableKey) (name : String) :
    ((kernel.listChainsIn owner).find? fun candidate => candidate.name = name).isNone = true ↔
      ¬ kernel.HasChain owner name := by
  simp [Ruleset.listChainsIn, Ruleset.HasChain]

variable {table : String}

/-- The chains to add. -/
theorem mem_chainsToAdd {chain : DeclaredChain} : (table, family, chain) ∈
        (diffWithOptions order hashOrder config kernel purgeTables).chainsToAdd ↔
      ∃ declared ∈ config.tables, declared.key = (family, table) ∧ chain ∈ declared.chains ∧
          (kernel.HasTable declared.key → ¬ kernel.HasChain declared.key chain.name) := by
  have isList : IsListOf .chain chainsToAdd := ⟨⟨rfl, fun _ _ => rfl⟩, fun _ => rfl⟩
  rw [chainList_diff isList, mem_flatMap]
  refine exists_congr fun declared => and_congr_right fun _ => ?_
  by_cases held : kernel.HasTable declared.key
  · rw [if_pos held]
    simp only [diffChains, mem_map, mem_filter, find_listChainsIn_isNone, Prod.mk.injEq,
      DeclaredTable.key_eq, held, true_implies]
    constructor
    · rintro ⟨_, ⟨member, missing⟩, rfl, rfl, rfl⟩
      exact ⟨⟨rfl, rfl⟩, member, missing⟩
    · rintro ⟨⟨rfl, rfl⟩, member, missing⟩
      exact ⟨chain, ⟨member, missing⟩, rfl, rfl, rfl⟩
  · rw [if_neg held]
    simp only [contents, mem_map, Prod.mk.injEq,
      DeclaredTable.key_eq, held, false_implies, and_true]
    constructor
    · rintro ⟨_, member, rfl, rfl, rfl⟩
      exact ⟨⟨rfl, rfl⟩, member⟩
    · rintro ⟨⟨rfl, rfl⟩, member⟩
      exact ⟨chain, member, rfl, rfl, rfl⟩

/-- The chains to modify have drifted. -/
theorem mem_chainsToModify {chain : DeclaredChain} : (table, family, chain) ∈
        (diffWithOptions order hashOrder config kernel purgeTables).chainsToModify ↔
      ∃ declared ∈ config.tables, declared.key = (family, table) ∧ chain ∈ declared.chains ∧
          kernel.HasTable declared.key ∧
          ∃ current,
            ((kernel.listChainsIn declared.key).find?
                fun candidate => candidate.name = chain.name) =
              some current ∧
              chainHasDrifted chain current = true := by
  have isList : IsListOf .chain chainsToModify := ⟨⟨rfl, fun _ _ => rfl⟩, fun _ => rfl⟩
  rw [chainList_diff isList, mem_flatMap]
  refine exists_congr fun declared => and_congr_right fun _ => ?_
  by_cases held : kernel.HasTable declared.key
  · rw [if_pos held]
    simp only [diffChains, mem_map, mem_filter,
      Option.any_eq_true, Prod.mk.injEq, DeclaredTable.key_eq, held, true_and]
    constructor
    · rintro ⟨_, ⟨member, differs⟩, rfl, rfl, rfl⟩
      exact ⟨⟨rfl, rfl⟩, member, differs⟩
    · rintro ⟨⟨rfl, rfl⟩, member, differs⟩
      exact ⟨chain, ⟨member, differs⟩, rfl, rfl, rfl⟩
  · simp [contents, empty, held]

theorem mem_chainsToDelete {name : String} : (table, family, name) ∈
        (diffWithOptions order hashOrder config kernel purgeTables).chainsToDelete ↔
      ∃ declared ∈ config.tables, declared.key = (family, table) ∧ kernel.HasTable declared.key ∧
          kernel.HasChain declared.key name ∧
          ∀ chain ∈ declared.chains, chain.name ≠ name := by
  have isList : IsListOf .chain chainsToDelete := ⟨⟨rfl, fun _ _ => rfl⟩, fun _ => rfl⟩
  rw [chainList_diff isList, mem_flatMap]
  refine exists_congr fun declared => and_congr_right fun _ => ?_
  by_cases held : kernel.HasTable declared.key
  · rw [if_pos held]
    simp only [diffChains, mem_map, mem_filter, Ruleset.listChainsIn, decide_eq_true_eq,
      Ruleset.HasChain, DeclaredTable.key_eq, Prod.mk.injEq]
    constructor
    · rintro ⟨current, ⟨⟨member, owned⟩, undeclared⟩, rfl, rfl, rfl⟩
      refine ⟨⟨rfl, rfl⟩, held, ⟨current, member, owned, rfl⟩, ?_⟩
      intro chain chainMember sameName
      exact undeclared ⟨chain, chainMember, sameName⟩
    · rintro ⟨⟨rfl, rfl⟩, _, ⟨current, member, owned, rfl⟩, undeclared⟩
      refine ⟨current, ⟨⟨member, owned⟩, ?_⟩, rfl, rfl, rfl⟩
      rintro ⟨chain, chainMember, sameName⟩
      exact undeclared chain chainMember sameName
  · simp [contents, empty, held]

/-! ### Flowtables -/

/-- The flowtables to add are missing or differ. -/
theorem mem_flowtablesToAdd {flowtable : DeclaredFlowtable} : flowtable ∈
        (diffWithOptions order hashOrder config kernel purgeTables).flowtablesToAdd ↔
      ∃ declared ∈ config.tables, flowtable ∈ declared.flowtables ∧
          (kernel.HasTable declared.key → ∀ current, ((kernel.listFlowtablesIn declared.key).find?
                fun candidate => candidate.name = flowtable.name) =
              some current →
              flowtableDiffers flowtable current = true) := by
  have isList : IsListOf .flowtable flowtablesToAdd := ⟨⟨rfl, fun _ _ => rfl⟩, fun _ => rfl⟩
  rw [flowtableList_diff isList, mem_flatMap]
  refine exists_congr fun declared => and_congr_right fun _ => ?_
  by_cases held : kernel.HasTable declared.key
  · rw [if_pos held]
    simp only [diffFlowtables, mem_filter, held, true_implies]
    refine and_congr_right fun _ => ?_
    cases (kernel.listFlowtablesIn declared.key).find? fun candidate =>
        candidate.name = flowtable.name with
    | none => simp
    | some current => simp
  · simp [contents, held]

theorem mem_flowtablesToDelete {table name : String} : (family, table, name) ∈
        (diffWithOptions order hashOrder config kernel purgeTables).flowtablesToDelete ↔
      ∃ declared ∈ config.tables, declared.key = (family, table) ∧ kernel.HasTable declared.key ∧
          kernel.HasFlowtable declared.key name ∧
          ∀ flowtable ∈ declared.flowtables, flowtable.name ≠ name := by
  have isList : IsListOf .flowtable flowtablesToDelete := ⟨⟨rfl, fun _ _ => rfl⟩, fun _ => rfl⟩
  rw [flowtableList_diff isList, mem_flatMap]
  refine exists_congr fun declared => and_congr_right fun _ => ?_
  by_cases held : kernel.HasTable declared.key
  · rw [if_pos held]
    simp only [diffFlowtables, mem_map, mem_filter, Ruleset.listFlowtablesIn,
      decide_eq_true_eq, Ruleset.HasFlowtable, DeclaredTable.key_eq, Prod.mk.injEq]
    constructor
    · rintro ⟨current, ⟨⟨member, owned⟩, undeclared⟩, rfl, rfl, rfl⟩
      refine ⟨⟨rfl, rfl⟩, held, ⟨current, member, owned, rfl⟩, ?_⟩
      intro flowtable flowtableMember sameName
      exact undeclared ⟨flowtable, flowtableMember, sameName⟩
    · rintro ⟨⟨rfl, rfl⟩, _, ⟨current, member, owned, rfl⟩, undeclared⟩
      refine ⟨current, ⟨⟨member, owned⟩, ?_⟩, rfl, rfl, rfl⟩
      rintro ⟨flowtable, flowtableMember, sameName⟩
      exact undeclared flowtable flowtableMember sameName
  · simp [contents, empty, held]

/-! ### Sets -/

theorem mem_listSetsIn_names (owner : TableKey) (name : String) :
    name ∈ (kernel.listSetsIn owner).map SetInfo.name ↔ kernel.HasSet owner name := by
  simp [Ruleset.listSetsIn, Ruleset.HasSet, and_assoc]

theorem list_diffSets_eq {list : NftablesDiff → List α} (isList : IsList list)
    (declared : DeclaredTable) :
    list (diffSets kernel declared) =
      (declared.sets.flatMap fun set =>
        if kernel.HasSet declared.key set.name then
          list (diffElements declared set (kernel.listSetElements declared.key set.name))
        else
          list (addSet declared set)) ++
      list
        { empty with
          setsToDelete :=
            ((kernel.listSetsIn declared.key).filter fun candidate =>
              candidate.name ∉ declared.sets.map DeclaredSet.name).map
              fun candidate =>
                (declared.name, declared.family, candidate.name) } := by
  rw [diffSets, isList.ofAppend, isList.concat, flatMap_map]
  simp only [mem_listSetsIn_names]
  congr 1
  refine flatMap_congr fun set _ => ?_
  exact apply_ite list _ _ _

/-- The sets to add. -/
theorem mem_setsToAdd {set : DeclaredSet} : (table, family, set) ∈
        (diffWithOptions order hashOrder config kernel purgeTables).setsToAdd ↔
      ∃ declared ∈ config.tables, declared.key = (family, table) ∧ set ∈ declared.sets ∧
          (kernel.HasTable declared.key → ¬ kernel.HasSet declared.key set.name) := by
  have isList : IsListOf .set setsToAdd := ⟨⟨rfl, fun _ _ => rfl⟩, fun _ => rfl⟩
  rw [setList_diff isList, mem_flatMap]
  refine exists_congr fun declared => and_congr_right fun _ => ?_
  by_cases held : kernel.HasTable declared.key
  · rw [if_pos held, list_diffSets_eq isList.toIsList]
    simp only [diffElements, addSet, empty, List.append_nil,
      mem_flatMap, DeclaredTable.key_eq, held, true_implies]
    constructor
    · rintro ⟨other, member, isSet⟩
      split at isSet
      · cases isSet
      · rename_i missing
        rw [mem_singleton] at isSet
        cases isSet
        exact ⟨⟨rfl, rfl⟩, member, missing⟩
    · rintro ⟨⟨rfl, rfl⟩, member, missing⟩
      exact ⟨set, member, by rw [if_neg missing]; exact mem_singleton_self _⟩
  · rw [if_neg held]
    simp only [addSet, mem_flatMap, mem_singleton, Prod.mk.injEq,
      DeclaredTable.key_eq, held, false_implies, and_true]
    constructor
    · rintro ⟨_, member, rfl, rfl, rfl⟩
      exact ⟨⟨rfl, rfl⟩, member⟩
    · rintro ⟨⟨rfl, rfl⟩, member⟩
      exact ⟨set, member, rfl, rfl, rfl⟩

theorem mem_setsToDelete {name : String} : (table, family, name) ∈
        (diffWithOptions order hashOrder config kernel purgeTables).setsToDelete ↔
      ∃ declared ∈ config.tables, declared.key = (family, table) ∧ kernel.HasTable declared.key ∧
          kernel.HasSet declared.key name ∧
          ∀ set ∈ declared.sets, set.name ≠ name := by
  have isList : IsListOf .set setsToDelete := ⟨⟨rfl, fun _ _ => rfl⟩, fun _ => rfl⟩
  rw [setList_diff isList, mem_flatMap]
  refine exists_congr fun declared => and_congr_right fun _ => ?_
  by_cases held : kernel.HasTable declared.key
  · rw [if_pos held, list_diffSets_eq isList.toIsList]
    rw [flatMap_eq_nil_iff.mpr
        (fun _ _ => by simp only [diffElements, addSet, empty,
          ite_self]), List.nil_append]
    simp only [mem_map, mem_filter, Ruleset.listSetsIn, decide_eq_true_eq, Ruleset.HasSet,
      DeclaredTable.key_eq, Prod.mk.injEq]
    constructor
    · rintro ⟨current, ⟨⟨member, owned⟩, undeclared⟩, rfl, rfl, rfl⟩
      refine ⟨⟨rfl, rfl⟩, held, ⟨current, member, owned, rfl⟩, ?_⟩
      intro set setMember sameName
      exact undeclared ⟨set, setMember, sameName⟩
    · rintro ⟨⟨rfl, rfl⟩, _, ⟨current, member, owned, rfl⟩, undeclared⟩
      refine ⟨current, ⟨⟨member, owned⟩, ?_⟩, rfl, rfl, rfl⟩
      rintro ⟨set, setMember, sameName⟩
      exact undeclared set setMember sameName
  · simp [addSet, empty, held]

theorem mem_setElementsToRemove {elements : List SetElement} : (table, family, name, elements) ∈
        (diffWithOptions order hashOrder config kernel purgeTables).setElementsToRemove ↔
      ∃ declared ∈ config.tables, declared.key = (family, table) ∧ kernel.HasTable declared.key ∧
          ∃ set ∈ declared.sets, set.name = name ∧ kernel.HasSet declared.key name ∧ elements ≠ [] ∧
              elements = (kernel.listSetElements declared.key name).filter
                  fun element =>
                    element.key ∉ set.elements.map SetElement.key := by
  have isList : IsListOf .set setElementsToRemove := ⟨⟨rfl, fun _ _ => rfl⟩, fun _ => rfl⟩
  rw [setList_diff isList, mem_flatMap]
  refine exists_congr fun declared => and_congr_right fun _ => ?_
  by_cases held : kernel.HasTable declared.key
  · rw [if_pos held, list_diffSets_eq isList.toIsList]
    simp only [empty, List.append_nil, mem_flatMap,
      DeclaredTable.key_eq, held, true_and]
    constructor
    · rintro ⟨set, member, isEntry⟩
      split at isEntry
      · rename_i setHeld
        simp only [diffElements] at isEntry
        split at isEntry
        · cases isEntry
        · rename_i nonempty
          cases mem_singleton.mp isEntry
          refine ⟨⟨rfl, rfl⟩, set, member, rfl, setHeld, ?_, rfl⟩
          exact fun empty => nonempty (List.isEmpty_iff.mpr empty)
      · cases isEntry
    · rintro ⟨⟨rfl, rfl⟩, set, member, rfl, setHeld, nonempty, isFilter⟩
      refine ⟨set, member, ?_⟩
      rw [if_pos setHeld]
      simp only [diffElements]
      rw [if_neg (by rw [← isFilter, List.isEmpty_iff]; exact nonempty), ← isFilter]
      exact mem_singleton_self _
  · simp [addSet, empty, held]

theorem owner_of_mem_setElementsToAdd {elements : List SetElement}
    (member : (table, family, name, elements) ∈
      (diffWithOptions order hashOrder config kernel purgeTables).setElementsToAdd) :
    ∃ declared ∈ config.tables, declared.key = (family, table) := by
  have isList : IsListOf .set setElementsToAdd := ⟨⟨rfl, fun _ _ => rfl⟩, fun _ => rfl⟩
  have ofAdd : ∀ declared set, (table, family, name, elements) ∈
          (addSet declared set).setElementsToAdd →
        declared.key = (family, table) := by
    intro declared set isEntry
    simp only [addSet] at isEntry
    split at isEntry
    · cases isEntry
    · cases mem_singleton.mp isEntry
      rfl
  rw [setList_diff isList, mem_flatMap] at member
  obtain ⟨declared, declaredMember, isEntry⟩ := member
  refine ⟨declared, declaredMember, ?_⟩
  split at isEntry
  · rw [list_diffSets_eq isList.toIsList] at isEntry
    simp only [empty, List.append_nil, mem_flatMap] at isEntry
    obtain ⟨set, _, isEntry⟩ := isEntry
    split at isEntry
    · simp only [diffElements] at isEntry
      split at isEntry
      · cases isEntry
      · cases mem_singleton.mp isEntry
        rfl
    · exact ofAdd declared set isEntry
  · obtain ⟨set, _, isEntry⟩ := mem_flatMap.mp isEntry
    exact ofAdd declared set isEntry

/-! ### Rules -/

variable {kernelRules : List RuleInfo}

theorem kernelByKey_eq_none {key : String} : kernelByKey kernelRules key = none ↔
      ∀ current ∈ kernelRules, current.comment ≠ some key := by
  simp [kernelByKey]

/-- The rule that is found for a key carries it. -/
theorem kernelByKey_eq_some {key : String} {current : RuleInfo}
    (found : kernelByKey kernelRules key = some current) :
    current ∈ kernelRules ∧ current.comment = some key := by
  rw [kernelByKey] at found
  have member := mem_of_find?_eq_some found
  have isKey := find?_some found
  exact ⟨mem_reverse.mp member, of_decide_eq_true isKey⟩

variable {rule : DeclaredRule}

/-- A rule is added when the kernel has none under its key. -/
theorem ruleAction_eq_add : ruleAction order kernelRules rule = .add ↔
      ∀ key, rule.handleKey = some key → ∀ current ∈ kernelRules, current.comment ≠ some key := by
  rw [ruleAction]
  cases rule.handleKey with
  | none => simp
  | some key =>
      simp only [Option.some.injEq, forall_eq', ← kernelByKey_eq_none]
      cases kernelByKey kernelRules key with
      | none => simp
      | some current =>
          by_cases differs : bodyDiffers order rule.body current = true <;>
            simp [differs]

variable {handle : Nat}

/-- A rule is replaced when the kernel has another body under its key. -/
theorem ruleAction_eq_replace :
    ruleAction order kernelRules rule = .replace handle ↔ ∃ key current, rule.handleKey = some key ∧
          kernelByKey kernelRules key = some current ∧
          bodyDiffers order rule.body current = true ∧
          current.handle = handle := by
  rw [ruleAction]
  cases rule.handleKey with
  | none => simp
  | some key =>
      simp only [Option.some.injEq]
      cases found : kernelByKey kernelRules key with
      | none => simp [found]
      | some current =>
          by_cases differs : bodyDiffers order rule.body current = true <;>
            simp [found, differs]

theorem mem_diffRules_chain {list : NftablesDiff → List α} (isList : IsList list)
    (declared : DeclaredTable) (currentRules : List RuleInfo) {entry : α} :
    entry ∈ list (diffRules order hashOrder declared currentRules) ↔
      (∃ chain, (∃ rule ∈ declared.rules, rule.chain = chain) ∧
        entry ∈ list (diffDeclaredChain order declared currentRules chain)) ∨
      ∃ chain, (∃ rule ∈ currentRules, rule.chain = chain) ∧
        (∀ rule ∈ declared.rules, rule.chain ≠ chain) ∧
        entry ∈ list (diffOtherChain declared currentRules chain) := by
  rw [diffRules, isList.ofAppend, isList.concat, isList.concat, flatMap_map, flatMap_map,
    mem_append, mem_flatMap, mem_flatMap]
  simp only [(hashOrder.permutes _).mem_iff, mem_filter, mem_dedup,
    mem_map, decide_eq_true_eq, not_exists, not_and, and_assoc]

/-- The rules to add. -/
theorem mem_rulesToAdd : rule ∈
        (diffWithOptions order hashOrder config kernel purgeTables).rulesToAdd ↔
      ∃ declared ∈ config.tables, rule ∈ declared.rules ∧
          (kernel.HasTable declared.key →
            ruleAction order (kernel.rulesIn declared.key rule.chain) rule = .add) := by
  have isList : IsListOf .rule rulesToAdd := ⟨⟨rfl, fun _ _ => rfl⟩, fun _ => rfl⟩
  rw [ruleList_diff isList, mem_flatMap]
  refine exists_congr fun declared => and_congr_right fun _ => ?_
  by_cases held : kernel.HasTable declared.key
  · rw [if_pos held, mem_diffRules_chain isList.toIsList]
    simp only [diffDeclaredChain, diffOtherChain, empty,
      Ruleset.listRules_filter_chain, mem_filter, DeclaredTable.rulesIn, decide_eq_true_eq,
      not_mem_nil, and_false, exists_false, or_false, held, true_implies]
    constructor
    · rintro ⟨_, _, ⟨member, rfl⟩, isAdd⟩
      exact ⟨member, isAdd⟩
    · rintro ⟨member, isAdd⟩
      exact ⟨rule.chain, ⟨rule, member, rfl⟩, ⟨member, rfl⟩, isAdd⟩
  · rw [if_neg held]
    simp [contents, held]

/-- The rules to replace, with the handles that they replace. -/
theorem mem_rulesToReplace {chain : String} :
    (table, family, chain, handle, rule) ∈
        (diffWithOptions order hashOrder config kernel purgeTables).rulesToReplace ↔
      ∃ declared ∈ config.tables, declared.key = (family, table) ∧ kernel.HasTable declared.key ∧
          rule ∈ declared.rules ∧ rule.chain = chain ∧
          ruleAction order (kernel.rulesIn declared.key chain) rule = .replace handle := by
  have isList : IsListOf .rule rulesToReplace := ⟨⟨rfl, fun _ _ => rfl⟩, fun _ => rfl⟩
  rw [ruleList_diff isList, mem_flatMap]
  refine exists_congr fun declared => and_congr_right fun _ => ?_
  by_cases held : kernel.HasTable declared.key
  · rw [if_pos held, mem_diffRules_chain isList.toIsList]
    simp only [diffDeclaredChain, diffOtherChain, empty,
      Ruleset.listRules_filter_chain, mem_filterMap, DeclaredTable.rulesIn, mem_filter,
      decide_eq_true_eq, not_mem_nil, and_false, exists_false, or_false, DeclaredTable.key_eq,
      held, true_and]
    constructor
    · rintro ⟨other, _, candidate, ⟨member, isIn⟩, isEntry⟩
      rw [replacement] at isEntry
      split at isEntry
      · rename_i isReplace
        cases isEntry
        subst isIn
        exact ⟨⟨rfl, rfl⟩, member, rfl, isReplace⟩
      · cases isEntry
    · rintro ⟨⟨rfl, rfl⟩, member, rfl, isReplace⟩
      refine ⟨rule.chain, ⟨rule, member, rfl⟩, rule, ⟨member, rfl⟩, ?_⟩
      rw [replacement, isReplace]
  · simp [contents, empty, held]

/-- The rules to delete carry a key that their chain no longer declares. -/
theorem mem_rulesToDelete {chain : String} : (table, family, chain, handle) ∈
        (diffWithOptions order hashOrder config kernel purgeTables).rulesToDelete ↔
      ∃ declared ∈ config.tables, declared.key = (family, table) ∧ kernel.HasTable declared.key ∧
          ∃ current ∈ kernel.rulesIn declared.key chain,
            current.handle = handle ∧ Touches declared chain ∧ ∃ key, current.comment = some key ∧
                ¬ DeclaresKey declared chain key := by
  have isList : IsListOf .rule rulesToDelete := ⟨⟨rfl, fun _ _ => rfl⟩, fun _ => rfl⟩
  rw [ruleList_diff isList, mem_flatMap]
  refine exists_congr fun declared => and_congr_right fun _ => ?_
  by_cases held : kernel.HasTable declared.key
  · rw [if_pos held, mem_diffRules_chain isList.toIsList]
    simp only [diffDeclaredChain, diffOtherChain,
      Ruleset.listRules_filter_chain, DeclaredTable.key_eq, held, true_and]
    constructor
    · rintro (⟨other, declares, isEntry⟩ | ⟨other, _, declaresNone, isEntry⟩)
      · obtain ⟨current, isDeleted, isDeletion⟩ := mem_map.mp isEntry
        cases isDeletion
        rw [mem_filter] at isDeleted
        obtain ⟨member, undeclared⟩ := isDeleted
        refine ⟨⟨rfl, rfl⟩, current, member, rfl, Or.inl declares, ?_⟩
        split at undeclared
        · rename_i key isKey
          refine ⟨key, isKey, ?_⟩
          rintro ⟨rule, ruleMember, isIn, ruleKey⟩
          rw [decide_eq_true_eq] at undeclared
          exact undeclared (mem_filterMap.mpr
            ⟨rule, mem_filter.mpr ⟨ruleMember, by simpa using isIn⟩, ruleKey⟩)
        · cases undeclared
      · split at isEntry
        · rename_i declaresChain
          obtain ⟨current, isDeleted, isDeletion⟩ := mem_map.mp isEntry
          cases isDeletion
          rw [mem_filter] at isDeleted
          obtain ⟨member, commented⟩ := isDeleted
          obtain ⟨key, isKey⟩ := Option.isSome_iff_exists.mp commented
          refine ⟨⟨rfl, rfl⟩, current, member, rfl, Or.inr ?_, key, isKey, ?_⟩
          · simpa using declaresChain
          · rintro ⟨rule, ruleMember, isIn, _⟩
            exact declaresNone rule ruleMember isIn
        · cases isEntry
    · rintro ⟨⟨rfl, rfl⟩, current, member, rfl, touches, key, isKey, undeclared⟩
      by_cases declares : ∃ rule ∈ declared.rules, rule.chain = chain
      · refine Or.inl ⟨chain, declares, mem_map.mpr ⟨current, ?_, rfl⟩⟩
        rw [mem_filter, isKey]
        refine ⟨member, ?_⟩
        simp only [decide_eq_true_eq]
        intro isDeclared
        obtain ⟨rule, ruleMember, ruleKey⟩ := mem_filterMap.mp isDeclared
        rw [DeclaredTable.rulesIn, mem_filter, decide_eq_true_eq] at ruleMember
        exact undeclared ⟨rule, ruleMember.1, ruleMember.2, ruleKey⟩
      · have declaresChain := touches.resolve_left declares
        refine Or.inr ⟨chain, ?_, ?_, ?_⟩
        · rw [Ruleset.mem_rulesIn] at member
          exact ⟨current, mem_filter.mpr ⟨member.1, by simpa using member.2.1⟩, member.2.2⟩
        · intro rule ruleMember isIn
          exact declares ⟨rule, ruleMember, isIn⟩
        · rw [if_pos (by simpa using declaresChain)]
          refine mem_map.mpr ⟨current, mem_filter.mpr ⟨member, ?_⟩, rfl⟩
          rw [isKey]
          rfl
  · simp [contents, empty, held]

end Lists

end Nlink.Nftables
