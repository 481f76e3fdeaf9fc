import Mathlib.Data.List.Flatten
import Nlink.NftablesBatchParts

namespace Nlink.Nftables

open Foundation Netlink List Ruleset NftablesDiff

/-!
# Drift of what exists

An update of a table, a chain or a flowtable is sent as the message that
creates it, with the flag that makes the kernel reject a name that is taken.
So what has drifted converges only where the object is deleted first, which
happens when another declaration of the table leaves it out.
-/

def BatchOp.flags : BatchOp → Nat
  | .newTable flags _ _ _ => flags
  | .newChain message => message.flags
  | .newRule message => message.flags
  | .newSet message => message.flags
  | .newFlowtable message => message.flags
  | .newSetElements _ _ _ _ => NLM_F_REQUEST ||| NLM_F_CREATE
  | _ => NLM_F_REQUEST

/-- The table or object that a message creates is there. -/
def Ruleset.HasNamed (ruleset : Ruleset) : BatchOp → Prop
  | .newTable _ family name _ => ruleset.HasTable (family, name)
  | .newChain message => ruleset.HasChain message.owner message.name
  | .newSet message => ruleset.HasSet message.owner message.name
  | .newFlowtable message => ruleset.HasFlowtable message.owner message.name
  | _ => False

/-- A message must not find its table or object, and it is there. -/
def Ruleset.NameTaken (ruleset : Ruleset) (operation : BatchOp) : Prop :=
  hasFlag operation.flags NLM_F_EXCL = true ∧ ruleset.HasNamed operation

theorem exclusive_new : hasFlag NLM_F_NEW NLM_F_EXCL = true := by
  decide

/-- The kernel accepts a batch: no message finds its name taken. -/
def Ruleset.Accepts (ruleset : Ruleset) (operations : List BatchOp) : Prop :=
  Along effect (fun (state : Ruleset) operation => ¬ state.NameTaken operation) ruleset
    operations

def declaredChains (config : NftablesConfig) : List (TableKey × DeclaredChain) :=
  config.tables.flatMap fun declared => declared.chains.map fun chain => (declared.key, chain)

def declaredSets (config : NftablesConfig) : List (TableKey × DeclaredSet) :=
  config.tables.flatMap fun declared => declared.sets.map fun set => (declared.key, set)

def declaredFlowtables (config : NftablesConfig) : List (TableKey × DeclaredFlowtable) :=
  config.tables.flatMap fun declared =>
    declared.flowtables.map fun flowtable => (declared.key, flowtable)

/-- The objects declared in a table have different names, also when several
declarations name the table. -/
structure DistinctNames (config : NftablesConfig) : Prop where
  chains : ((declaredChains config).map fun entry => (entry.1, entry.2.name)).Nodup
  sets : ((declaredSets config).map fun entry => (entry.1, entry.2.name)).Nodup
  flowtables : ((declaredFlowtables config).map fun entry => (entry.1, entry.2.name)).Nodup

/-- The kernel holds the declared tables, chains and flowtables. -/
structure HoldsDeclared (config : NftablesConfig) (kernel : Ruleset) : Prop where
  tables : HoldsTables config kernel
  chains : ∀ declared ∈ config.tables, ∀ chain ∈ declared.chains,
    kernel.HasChain declared.key chain.name
  flowtables : ∀ declared ∈ config.tables, ∀ flowtable ∈ declared.flowtables,
      kernel.HasFlowtable declared.key flowtable.name

/-- Nothing that a diff would update by creating it is left. -/
structure Settled (diff : NftablesDiff) : Prop where
  tables : diff.tablesToModify = []
  chains : diff.chainsToModify = []
  flowtables : diff.flowtablesToAdd = []

/-- What is declared of a chain is in the message that creates it: priority and
device are sent with a hook only. -/
def DeclaredChain.HookGiven (chain : DeclaredChain) : Prop :=
  chain.hook = none → chain.priority = none ∧ chain.device = none

/-- The condition under which drift converges. -/
structure DriftConverges (config : NftablesConfig) (kernel : Ruleset) : Prop where
  /-- No flags of a table have drifted. -/
  tables : ∀ declared ∈ config.tables, ∀ current, currentTable kernel declared = some current →
      current.flags = declared.flags
  /-- A chain that has drifted is deleted before it is created. -/
  chains : ∀ declared ∈ config.tables, ∀ chain ∈ declared.chains,
    ∀ current ∈ kernel.chains, current.owner = declared.key →
      current.name = chain.name → chainHasDrifted chain current = true →
        Lost config kernel declared.key (.chain chain.name) ∧ chain.HookGiven
  /-- The flowtables that have drifted are those that are deleted. -/
  flowtables : ∀ declared ∈ config.tables,
    ∀ flowtable ∈ declared.flowtables, ∀ current ∈ kernel.flowtables,
      current.owner = declared.key → current.name = flowtable.name →
        (flowtableDiffers flowtable current = true ↔
          Lost config kernel declared.key (.flowtable flowtable.name))

/-- The object that an operation creates under a name. -/
def BatchOp.created : BatchOp → Option (TableKey × Reference)
  | .newSet message => some (message.owner, .set message.name)
  | .newChain message => some (message.owner, .chain message.name)
  | .newFlowtable message => some (message.owner, .flowtable message.name)
  | _ => none

theorem BatchOp.makes_iff_created (operation : BatchOp) (owner : TableKey) (reference : Reference) :
    operation.makes owner reference ↔ operation.created = some (owner, reference) := by
  cases reference <;> cases operation <;> simp [BatchOp.makes, BatchOp.created]

theorem BatchOp.not_removes_of_created {operation : BatchOp} {made : TableKey × Reference}
    (created : operation.created = some made) (owner : TableKey) (reference : Reference) :
    ¬ operation.removes owner reference := by
  cases operation <;> cases created <;> cases reference <;>
    simp [BatchOp.removes, BatchOp.removesTable, BatchOp.delete]

theorem hasNamed_iff {operation : BatchOp} {owner : TableKey} {reference : Reference}
    (created : operation.created = some (owner, reference)) (ruleset : Ruleset) :
    ruleset.HasNamed operation ↔ ruleset.Resolves owner reference := by
  cases operation <;> cases created <;> exact Iff.rfl

theorem nameTaken_effect {first second : BatchOp} {firstMade secondMade : TableKey × Reference}
    (firstCreated : first.created = some firstMade)
    (secondCreated : second.created = some secondMade) (different : first.created ≠ second.created)
    (ruleset : Ruleset) : (ruleset.effect first).NameTaken second ↔ ruleset.NameTaken second := by
  obtain ⟨owner, reference⟩ := secondMade
  rw [Ruleset.NameTaken, Ruleset.NameTaken, hasNamed_iff secondCreated,
    hasNamed_iff secondCreated, resolves_effect,
    BatchOp.makes_iff_created, and_iff_left
      (BatchOp.not_removes_of_created firstCreated owner reference),
    or_iff_left fun same => different (same.trans secondCreated.symm)]

theorem accepts_creations_iff {operations : List BatchOp}
    (create : ∀ operation ∈ operations, ∃ made, operation.created = some made)
    (distinct : (operations.map BatchOp.created).Nodup) (ruleset : Ruleset) :
    ruleset.Accepts operations ↔ ∀ operation ∈ operations, ¬ ruleset.NameTaken operation := by
  refine along_iff_of_names distinct ?_ ruleset
  intro state first firstMember second secondMember different
  obtain ⟨firstMade, firstCreated⟩ := create first firstMember
  obtain ⟨secondMade, secondCreated⟩ := create second secondMember
  rw [nameTaken_effect firstCreated secondCreated different]

theorem chainsDistinct_effect {ruleset : Ruleset}
    (distinct : (ruleset.chains.map fun chain => (chain.owner, chain.name)).Nodup)
    (operation : BatchOp) :
    ((ruleset.effect operation).chains.map fun chain =>
      (chain.owner, chain.name)).Nodup := by
  cases operation with
  | newChain message =>
      refine upsert_nodup (fun chain => rfl) (fun chain => ?_) distinct
      exact decide_eq_true_iff.trans Prod.mk_inj.symm
  | delTable family name | delChain family table name =>
      exact distinct.sublist (filter_sublist.map _)
  | _ => exact distinct

theorem flowtablesDistinct_effect {ruleset : Ruleset}
    (distinct : (ruleset.flowtables.map fun flowtable => (flowtable.owner, flowtable.name)).Nodup)
    (operation : BatchOp) :
    ((ruleset.effect operation).flowtables.map fun flowtable =>
      (flowtable.owner, flowtable.name)).Nodup := by
  cases operation with
  | newFlowtable message =>
      refine upsert_nodup (fun flowtable => rfl) (fun flowtable => ?_) distinct
      exact decide_eq_true_iff.trans Prod.mk_inj.symm
  | delTable family name | delFlowtable family table name =>
      exact distinct.sublist (filter_sublist.map _)
  | _ => exact distinct

theorem find_eq_some_iff_of_distinct {items : List α} {nameOf : α → ν}
    (distinct : (items.map nameOf).Nodup) {isNamed : α → Bool} (name : ν)
    (isNamed_iff : ∀ item ∈ items, isNamed item = true ↔ nameOf item = name) {item : α} :
    items.find? isNamed = some item ↔ item ∈ items ∧ nameOf item = name := by
  constructor
  · intro found
    have member := mem_of_find?_eq_some found
    exact ⟨member, (isNamed_iff item member).mp (find?_some found)⟩
  · rintro ⟨member, isName⟩
    cases found : items.find? isNamed with
    | none =>
        rw [find?_eq_none] at found
        exact absurd ((isNamed_iff item member).mpr isName) (found item member)
    | some other =>
        have otherMember := mem_of_find?_eq_some found
        have sameName := (isNamed_iff other otherMember).mp (find?_some found)
        rw [inj_on_of_nodup_map distinct otherMember member (sameName.trans isName.symm)]

section Drift

variable {order : ByteOrder}
variable {hashOrder : HashOrder}
variable {config : NftablesConfig}
variable {kernel : Ruleset}

theorem setsToAdd_sublist :
    ((diff order hashOrder config kernel).setsToAdd.map fun entry =>
        ((entry.2.1, entry.1), entry.2.2.name)).Sublist
      ((declaredSets config).map fun entry => (entry.1, entry.2.name)) := by
  have isList : IsListOf .set setsToAdd := ⟨⟨rfl, fun _ _ => rfl⟩, fun _ => rfl⟩
  rw [diff, setList_diff isList, declaredSets, map_flatMap, map_flatMap]
  refine List.Sublist.flatMap_right _ fun declared _ => ?_
  have added : ∀ set : DeclaredSet, ((if kernel.HasSet declared.key set.name then
          (diffElements declared set (kernel.listSetElements declared.key set.name)).setsToAdd
        else
          (addSet declared set).setsToAdd).map fun entry =>
        ((entry.2.1, entry.1), entry.2.2.name)).Sublist [(declared.key, set.name)] := by
    intro set
    split
    · exact nil_sublist _
    · exact List.Sublist.refl _
  have names :
      ((declared.sets.map fun set => (declared.key, set)).map
          fun entry => (entry.1, entry.2.name)) =
        declared.sets.flatMap fun set => [(declared.key, set.name)] := by
    rw [map_map, map_eq_flatMap]
    rfl
  rw [names]
  split
  · rw [list_diffSets_eq isList.toIsList, empty, List.append_nil, map_flatMap]
    exact List.Sublist.flatMap_right _ fun set _ => added set
  · rw [map_flatMap]
    exact List.Sublist.flatMap_right _ fun set _ => List.Sublist.refl _

theorem chainsToModify_sublist :
    ((diff order hashOrder config kernel).chainsToModify.map fun entry =>
        ((entry.2.1, entry.1), entry.2.2.name)).Sublist
      ((declaredChains config).map fun entry => (entry.1, entry.2.name)) := by
  have isList : IsListOf .chain chainsToModify := ⟨⟨rfl, fun _ _ => rfl⟩, fun _ => rfl⟩
  rw [diff, chainList_diff isList, declaredChains, map_flatMap, map_flatMap]
  refine List.Sublist.flatMap_right _ fun declared _ => ?_
  split
  · rw [diffChains, map_map, map_map]
    exact filter_sublist.map _
  · exact nil_sublist _

theorem flowtablesToAdd_sublist :
    ((diff order hashOrder config kernel).flowtablesToAdd.map fun flowtable =>
        ((flowtable.family, flowtable.table), flowtable.name)).Sublist
      ((declaredFlowtables config).map fun entry =>
        (entry.1, entry.2.name)) := by
  have isList : IsListOf .flowtable flowtablesToAdd := ⟨⟨rfl, fun _ _ => rfl⟩, fun _ => rfl⟩
  rw [diff, flowtableList_diff isList, declaredFlowtables, map_flatMap, map_flatMap]
  refine List.Sublist.flatMap_right _ fun declared _ => ?_
  have inTable :
      ((declared.flowtables.map fun flowtable => (declared.key, flowtable)).map
          fun entry => (entry.1, entry.2.name)) =
        declared.flowtables.map fun flowtable =>
          ((flowtable.family, flowtable.table), flowtable.name) := by
    rw [map_map]
    refine map_congr_left fun flowtable member => ?_
    obtain ⟨sameTable, sameFamily⟩ := declared.flowtablesOwned flowtable member
    rw [sameTable, sameFamily]
    rfl
  rw [inTable]
  split
  · rw [diffFlowtables]
    exact filter_sublist.map _
  · exact List.Sublist.refl _

theorem accepts_append (ruleset : Ruleset) (first second : List BatchOp) :
    ruleset.Accepts (first ++ second) ↔ ruleset.Accepts first ∧
        (first.foldl effect ruleset).Accepts second :=
  along_append _ _ ruleset first second

theorem accepts_of_unnamed {operations : List BatchOp}
    (unnamed : ∀ operation ∈ operations, ∀ ruleset : Ruleset, ¬ ruleset.HasNamed operation)
    (ruleset : Ruleset) : ruleset.Accepts operations := by
  refine along_of_always ?_ ruleset
  intro state operation member taken
  exact unnamed operation member state taken.2

theorem accepts_deletions (wellFormed : kernel.WellFormed) (ruleset : Ruleset) :
    ruleset.Accepts (diff order hashOrder config kernel).deletions := by
  refine accepts_of_unnamed ?_ ruleset
  intro operation member state
  rcases mem_deletions wellFormed member with
    ⟨_, _, _, _, rfl⟩ | ⟨_, _, _, _, rfl⟩ | ⟨_, deleted, rfl⟩
  · exact id
  · exact id
  · cases deleted <;> exact id

variable {ruleset : Ruleset}

theorem accepts_tableUpdates (holds : HoldsTables config ruleset) :
    ruleset.Accepts (diff order hashOrder config kernel).tableUpdates ↔
      (diff order hashOrder config kernel).tablesToModify = [] := by
  rw [tableUpdates]
  cases modified : (diff order hashOrder config kernel).tablesToModify with
  | nil => exact iff_of_true trivial rfl
  | cons entry rest =>
      refine iff_of_false ?_ (cons_ne_nil _ _)
      intro accepted
      have isModified : (entry.1, entry.2.1, entry.2.2) ∈
          (diff order hashOrder config kernel).tablesToModify := by
        rw [modified]
        exact mem_cons_self ..
      rw [diff, mem_tablesToModify] at isModified
      obtain ⟨declared, member, sameKey, _⟩ := isModified
      have held := holds declared member
      rw [sameKey] at held
      exact accepted.1 ⟨exclusive_new, held⟩

theorem accepts_setAdditions (wellFormed : kernel.WellFormed) (distinct : DistinctNames config) :
    ((diff order hashOrder config kernel).deletions.foldl effect kernel).Accepts
        (diff order hashOrder config kernel).setAdditions := by
  have created : (diff order hashOrder config kernel).setAdditions.map BatchOp.created =
        ((diff order hashOrder config kernel).setsToAdd.map fun entry =>
          ((entry.2.1, entry.1), entry.2.2.name)).map fun made =>
            some (made.1, .set made.2) := by
    rw [setAdditions, map_map, map_map]
    conv_rhs => rw [← zipIdx_map_fst 1 (diff order hashOrder config kernel).setsToAdd, map_map]
    rfl
  have distinctAdded : (((diff order hashOrder config kernel).setAdditions).map
      BatchOp.created).Nodup := by
    rw [created]
    refine ((setsToAdd_sublist).nodup distinct.sets).map ?_
    intro first second same
    cases first
    cases second
    cases same
    rfl
  rw [accepts_creations_iff ?_ distinctAdded]
  · intro operation member taken
    obtain ⟨⟨⟨table, family, set⟩, setId⟩, isIndexed, rfl⟩ := mem_map.mp member
    have isAdded := fst_mem_of_mem_zipIdx isIndexed
    rw [diff, mem_setsToAdd] at isAdded
    obtain ⟨declared, _, sameKey, _, missing⟩ := isAdded
    have held := ((resolves_afterDeletions wellFormed (family, table) (.set set.name)).mp taken.2).1
    rw [sameKey] at missing
    exact missing (hasTable_of_resolves wellFormed held) held
  · intro operation member
    obtain ⟨entry, _, rfl⟩ := mem_map.mp member
    exact ⟨_, rfl⟩

variable (order hashOrder)

theorem accepts_creations_of_kind (wellFormed : kernel.WellFormed) {kind : String → Reference}
    (injective : Function.Injective kind) {items : List ι} {toOperation : ι → BatchOp}
    {nameOf : ι → TableKey × String}
    (created : ∀ item, (toOperation item).created = some ((nameOf item).1, kind (nameOf item).2))
    (exclusive : ∀ item, hasFlag (toOperation item).flags NLM_F_EXCL = true)
    (distinct : (items.map nameOf).Nodup)
    (held : ∀ item ∈ items, kernel.Resolves (nameOf item).1 (kind (nameOf item).2))
    {ruleset : Ruleset}
    (same : ∀ owner name, ruleset.Resolves owner (kind name) ↔
        ((diff order hashOrder config kernel).deletions.foldl
          effect kernel).Resolves owner (kind name)) :
    ruleset.Accepts (items.map toOperation) ↔ ∀ item ∈ items,
        Lost config kernel (nameOf item).1 (kind (nameOf item).2) := by
  have distinctCreated : ((items.map toOperation).map BatchOp.created).Nodup := by
    have names : (items.map toOperation).map BatchOp.created =
        (items.map nameOf).map fun name => some (name.1, kind name.2) := by
      rw [map_map, map_map]
      exact map_congr_left fun item _ => created item
    rw [names]
    refine distinct.map ?_
    intro first second sameObject
    obtain ⟨sameOwner, sameKind⟩ := Prod.mk.inj (Option.some.inj sameObject)
    exact Prod.ext sameOwner (injective sameKind)
  rw [accepts_creations_iff ?_ distinctCreated, forall_mem_map]
  · refine forall₂_congr fun item member => ?_
    rw [Ruleset.NameTaken, hasNamed_iff (created item), same, resolves_afterDeletions wellFormed,
      and_iff_right (exclusive item), and_iff_right (held item member), not_not]
  · rw [forall_mem_map]
    exact fun item _ => ⟨_, created item⟩

variable {order hashOrder}

theorem chainsToAdd_diff (holds : HoldsDeclared config kernel) :
    (diff order hashOrder config kernel).chainsToAdd = [] := by
  rw [eq_nil_iff_forall_not_mem]
  rintro ⟨table, family, chain⟩ isAdded
  rw [diff, mem_chainsToAdd] at isAdded
  obtain ⟨declared, member, _, chainMember, missing⟩ := isAdded
  exact missing (holds.tables declared member) (holds.chains declared member chain chainMember)

theorem accepts_chainAdditions (wellFormed : kernel.WellFormed) (distinct : DistinctNames config)
    (holds : HoldsDeclared config kernel)
    (sameChains : ruleset.chains =
      ((diff order hashOrder config kernel).deletions.foldl effect kernel).chains) :
    ruleset.Accepts (diff order hashOrder config kernel).chainAdditions ↔
      ∀ entry ∈ (diff order hashOrder config kernel).chainsToModify,
        Lost config kernel (entry.2.1, entry.1) (.chain entry.2.2.name) := by
  have updates : (diff order hashOrder config kernel).chainAdditions =
        (diff order hashOrder config kernel).chainsToModify.map fun entry =>
          .newChain (chainMessage entry.1 entry.2.1 entry.2.2) := by
    rw [chainAdditions, chainChanges,
      chainsToAdd_diff holds, List.nil_append]
  rw [updates]
  refine accepts_creations_of_kind order hashOrder wellFormed
    (fun _ _ => Reference.chain.inj) (fun entry => rfl) (fun entry => by exact exclusive_new)
    ((chainsToModify_sublist).nodup distinct.chains) ?_ ?_
  · rintro ⟨table, family, chain⟩ isModified
    rw [diff, mem_chainsToModify] at isModified
    obtain ⟨declared, member, sameKey, chainMember, _⟩ := isModified
    have held := holds.chains declared member chain chainMember
    rw [sameKey] at held
    exact held
  · intro owner name
    simp only [Ruleset.Resolves, Ruleset.HasChain, sameChains]

theorem accepts_flowtableAdditions (wellFormed : kernel.WellFormed)
    (distinct : DistinctNames config) (holds : HoldsDeclared config kernel)
    (sameFlowtables : ruleset.flowtables =
      ((diff order hashOrder config kernel).deletions.foldl effect kernel).flowtables) :
    ruleset.Accepts (diff order hashOrder config kernel).flowtableAdditions ↔
      ∀ flowtable ∈ (diff order hashOrder config kernel).flowtablesToAdd,
        Lost config kernel (flowtable.family, flowtable.table) (.flowtable flowtable.name) := by
  refine accepts_creations_of_kind order hashOrder wellFormed
    (fun _ _ => Reference.flowtable.inj) (fun flowtable => by rw [buildFlowtable_eq]; rfl)
    (fun flowtable => by exact exclusive_new)
    ((flowtablesToAdd_sublist).nodup distinct.flowtables) ?_ ?_
  · intro flowtable isAdded
    rw [diff, mem_flowtablesToAdd] at isAdded
    obtain ⟨declared, member, flowtableMember, _⟩ := isAdded
    have held := holds.flowtables declared member flowtable flowtableMember
    obtain ⟨sameTable, sameFamily⟩ := declared.flowtablesOwned flowtable flowtableMember
    rw [DeclaredTable.key, ← sameTable, ← sameFamily] at held
    exact held
  · intro owner name
    simp only [Ruleset.Resolves, Ruleset.HasFlowtable, sameFlowtables]

theorem batch_of_holds (holds : HoldsTables config kernel) :
    (diff order hashOrder config kernel).batch order =
      (diff order hashOrder config kernel).deletions ++
        ((diff order hashOrder config kernel).tableUpdates ++
          ((diff order hashOrder config kernel).setAdditions ++
            (diff order hashOrder config kernel).elementAdditions ++
            ((diff order hashOrder config kernel).chainAdditions ++
              ((diff order hashOrder config kernel).ruleAdditions order ++
                (diff order hashOrder config kernel).flowtableAdditions)))) := by
  have noTables : (diff order hashOrder config kernel).tablesToAdd = [] := by
    rw [diff, tablesToAdd_diff, filter_eq_nil_iff]
    intro declared member
    simpa using holds declared member
  rw [batch_eq, tableCreations, noTables, objectAdditions]
  simp only [map_nil, List.append_nil, List.append_assoc]

/-- The tables, chains and flowtables of a ruleset. -/
def Ruleset.shape (ruleset : Ruleset) : List Table × List ChainInfo × List Flowtable :=
  (ruleset.tables, ruleset.chains, ruleset.flowtables)

theorem shape_afterSets (ruleset : Ruleset) :
    (((diff order hashOrder config kernel).setAdditions ++
      (diff order hashOrder config kernel).elementAdditions).foldl
        effect ruleset).shape = ruleset.shape := by
  refine foldl_unchanged effect shape ?_ ruleset
  intro state operation member
  rcases mem_append.mp member with member | member
  · obtain ⟨entry, _, rfl⟩ := mem_map.mp member
    rfl
  · obtain ⟨entry, _, rfl⟩ := mem_map.mp member
    rfl

theorem shape_afterRules (ruleset : Ruleset) :
    (((diff order hashOrder config kernel).ruleAdditions order).foldl
      effect ruleset).shape = ruleset.shape := by
  refine foldl_unchanged effect shape ?_ ruleset
  intro state operation member
  rw [ruleAdditions] at member
  rcases mem_append.mp member with member | member
  · obtain ⟨entry, _, rfl⟩ := mem_map.mp member
    rfl
  · obtain ⟨entry, _, rfl⟩ := mem_map.mp member
    rfl

theorem shape_afterChains (ruleset : Ruleset) :
    (((diff order hashOrder config kernel).chainAdditions.foldl effect ruleset).tables,
      ((diff order hashOrder config kernel).chainAdditions.foldl
        effect ruleset).flowtables) =
      (ruleset.tables, ruleset.flowtables) := by
  have unchanged : ∀ state : Ruleset, ∀ operation ∈
      (diff order hashOrder config kernel).chainAdditions,
      ((state.effect operation).tables, (state.effect operation).flowtables) =
        (state.tables, state.flowtables) := by
    intro state operation member
    obtain ⟨entry, _, rfl⟩ := mem_map.mp member
    rfl
  exact foldl_unchanged effect
    (fun state => (state.tables, state.flowtables)) unchanged ruleset

theorem shape_afterFlowtables (ruleset : Ruleset) :
    (((diff order hashOrder config kernel).flowtableAdditions.foldl effect ruleset).tables,
      ((diff order hashOrder config kernel).flowtableAdditions.foldl
        effect ruleset).chains) =
      (ruleset.tables, ruleset.chains) := by
  have unchanged : ∀ state : Ruleset, ∀ operation ∈
      (diff order hashOrder config kernel).flowtableAdditions,
      ((state.effect operation).tables, (state.effect operation).chains) =
        (state.tables, state.chains) := by
    intro state operation member
    obtain ⟨entry, _, rfl⟩ := mem_map.mp member
    rfl
  exact foldl_unchanged effect (fun state => (state.tables, state.chains)) unchanged ruleset

/-- The batch is accepted when no table is updated, and the chains and
flowtables that are updated are deleted first. -/
theorem accepts_batch_iff (wellFormed : kernel.WellFormed) (distinct : DistinctNames config)
    (holds : HoldsDeclared config kernel) :
    kernel.Accepts ((diff order hashOrder config kernel).batch order) ↔
      (diff order hashOrder config kernel).tablesToModify = [] ∧
        (∀ entry ∈ (diff order hashOrder config kernel).chainsToModify,
          Lost config kernel (entry.2.1, entry.1) (.chain entry.2.2.name)) ∧
        ∀ flowtable ∈ (diff order hashOrder config kernel).flowtablesToAdd,
          Lost config kernel (flowtable.family, flowtable.table) (.flowtable flowtable.name) := by
  have tablesHeld : HoldsTables config
      ((diff order hashOrder config kernel).deletions.foldl effect kernel) := by
    refine foldl_invariant ?_ holds.tables
    intro state held operation member
    refine @HoldsTables.effect order hashOrder config kernel _ _ held ?_
    rw [batch_eq]
    simp only [mem_append]
    tauto
  rw [batch_of_holds holds.tables, accepts_append,
    and_iff_right (accepts_deletions wellFormed kernel), accepts_append,
    accepts_tableUpdates tablesHeld]
  refine and_congr_right fun noUpdates => ?_
  rw [tableUpdates, noUpdates, map_nil, foldl_nil]
  have elementsAccepted : ∀ ruleset : Ruleset, ruleset.Accepts
      (diff order hashOrder config kernel).elementAdditions := by
    refine accepts_of_unnamed fun operation member state => ?_
    obtain ⟨entry, _, rfl⟩ := mem_map.mp member
    exact id
  have rulesAccepted : ∀ ruleset : Ruleset, ruleset.Accepts
      ((diff order hashOrder config kernel).ruleAdditions order) := by
    refine accepts_of_unnamed fun operation member state => ?_
    rw [ruleAdditions] at member
    rcases mem_append.mp member with member | member
    · obtain ⟨entry, _, rfl⟩ := mem_map.mp member
      exact id
    · obtain ⟨entry, _, rfl⟩ := mem_map.mp member
      exact id
  have setsAccepted := @accepts_setAdditions order hashOrder config kernel wellFormed distinct
  rw [accepts_append, accepts_append, and_iff_right (And.intro setsAccepted (elementsAccepted _)),
    accepts_append, accepts_append, and_iff_right (rulesAccepted _), accepts_chainAdditions
    wellFormed distinct holds, accepts_flowtableAdditions wellFormed distinct holds]
  · have afterRules := @shape_afterRules order hashOrder config kernel
    have afterChains := @shape_afterChains order hashOrder config kernel
    have afterSets := @shape_afterSets order hashOrder config kernel
    exact ((congrArg (·.2.2) (afterRules _)).trans (congrArg Prod.snd (afterChains _))).trans
        (congrArg (·.2.2) (afterSets _))
  · exact congrArg (·.2.1) (shape_afterSets _)

/-- What the deletions leave of the items of one kind. -/
theorem mem_afterDeletions (wellFormed : kernel.WellFormed) {items : Ruleset → List α} {item : α}
    {owner : TableKey} {reference : Reference}
    (rules : ∀ state family table chain handle,
      items (effect state (.delRule family table chain handle)) = items state)
    (elements : ∀ state family table set elements,
      items (effect state (.delSetElements family table set elements)) = items state)
    (objects : ∀ state other deleted, item ∈ items (effect state (.delete other deleted)) ↔
      item ∈ items state ∧ ¬ (owner = other ∧ reference = deleted)) :
    item ∈ items ((diff order hashOrder config kernel).deletions.foldl effect kernel) ↔
      item ∈ items kernel ∧ ¬ Lost config kernel owner reference := by
  have each : ∀ state : Ruleset, ∀ operation ∈ (diff order hashOrder config kernel).deletions,
      (item ∈ items (state.effect operation) ↔
        item ∈ items state ∧ ¬ operation.removes owner reference) := by
    intro state operation member
    rcases mem_deletions wellFormed member with
      ⟨_, _, _, _, rfl⟩ | ⟨_, _, _, _, rfl⟩ | ⟨other, deleted, rfl⟩
    · cases reference <;> simp [rules, BatchOp.removes, BatchOp.removesTable, BatchOp.delete]
    · cases reference <;> simp [elements, BatchOp.removes, BatchOp.removesTable, BatchOp.delete]
    · have noTable : ¬ (BatchOp.delete other deleted).removesTable owner := by
        cases deleted <;> exact BatchOp.noConfusion
      rw [objects, BatchOp.removes, or_iff_right noTable, BatchOp.delete_inj, @eq_comm _ other,
        @eq_comm _ deleted]
  rw [foldl_and_iff effect (item ∈ items ·) each, deletions_remove_iff wellFormed]

theorem mem_chains_afterDeletions (wellFormed : kernel.WellFormed) {chain : ChainInfo} :
    chain ∈ ((diff order hashOrder config kernel).deletions.foldl effect kernel).chains ↔
      chain ∈ kernel.chains ∧ ¬ Lost config kernel chain.owner (.chain chain.name) := by
  refine mem_afterDeletions wellFormed (fun _ _ _ _ _ => rfl) (fun _ _ _ _ _ => rfl) ?_
  intro state other deleted
  cases deleted <;> simp [BatchOp.delete, effect, imp_iff_not_or]

theorem mem_flowtables_afterDeletions (wellFormed : kernel.WellFormed) {flowtable : Flowtable} :
    flowtable ∈ ((diff order hashOrder config kernel).deletions.foldl
        effect kernel).flowtables ↔
      flowtable ∈ kernel.flowtables ∧
        ¬ Lost config kernel flowtable.owner (.flowtable flowtable.name) := by
  refine mem_afterDeletions wellFormed (fun _ _ _ _ _ => rfl) (fun _ _ _ _ _ => rfl) ?_
  intro state other deleted
  cases deleted <;> simp [BatchOp.delete, effect, imp_iff_not_or]

theorem chains_newChain {message : NewChain}
    (missing : ¬ ruleset.HasChain message.owner message.name) :
    (ruleset.effect (.newChain message)).chains = ruleset.chains ++ [message.create] := by
  refine upsert_of_none fun chain member => ?_
  rw [decide_eq_false_iff_not]
  exact fun isNamed => missing ⟨chain, member, isNamed⟩

theorem flowtables_addFlowtable {flowtable : Flowtable}
    (missing : ¬ ruleset.HasFlowtable flowtable.owner flowtable.name) :
    (ruleset.effect (Transaction.addFlowtable flowtable)).flowtables =
      ruleset.flowtables ++ [flowtable] := by
  refine (upsert_of_none fun other member => ?_).trans ?_
  · rw [decide_eq_false_iff_not]
    exact fun isNamed => missing ⟨other, member, isNamed⟩
  · rw [NewFlowtable.create]
    obtain ⟨family, table, name, devs, priority, flags⟩ := flowtable
    cases devs <;> cases flags <;> rfl

/-- The tables, chains and flowtables after an accepted batch. -/
theorem shape_commit (wellFormed : kernel.WellFormed) (distinct : DistinctNames config)
    (holds : HoldsDeclared config kernel)
    (accepted : kernel.Accepts ((diff order hashOrder config kernel).batch order)) :
    (kernel.commit ((diff order hashOrder config kernel).batch order)).shape =
      (kernel.tables,
        ((diff order hashOrder config kernel).deletions.foldl effect kernel).chains ++
          (diff order hashOrder config kernel).chainsToModify.map fun entry =>
            (chainMessage entry.1 entry.2.1 entry.2.2).create,
        ((diff order hashOrder config kernel).deletions.foldl effect kernel).flowtables ++
          (diff order hashOrder config kernel).flowtablesToAdd.map buildFlowtable) := by
  have noUpdates := ((accepts_batch_iff wellFormed distinct holds).mp accepted).1
  rw [batch_of_holds holds.tables, tableUpdates, noUpdates, map_nil, List.nil_append]
    at accepted ⊢
  rw [accepts_append] at accepted
  obtain ⟨_, accepted⟩ := accepted
  rw [accepts_append] at accepted
  obtain ⟨_, accepted⟩ := accepted
  rw [accepts_append] at accepted
  obtain ⟨chainsAccepted, accepted⟩ := accepted
  rw [accepts_append] at accepted
  obtain ⟨_, flowtablesAccepted⟩ := accepted
  rw [commit, foldl_append, foldl_append, foldl_append, foldl_append]
  have deletedTables :
      ((diff order hashOrder config kernel).deletions.foldl
        effect kernel).tables = kernel.tables := by
    refine foldl_unchanged effect tables ?_ kernel
    intro state operation member
    rcases mem_deletions wellFormed member with
      ⟨_, _, _, _, rfl⟩ | ⟨_, _, _, _, rfl⟩ | ⟨_, reference, rfl⟩
    · rfl
    · rfl
    · cases reference <;> rfl
  -- the states between the parts
  generalize (diff order hashOrder config kernel).deletions.foldl
    effect kernel = deleted at *
  have sets := @shape_afterSets order hashOrder config kernel deleted
  generalize ((diff order hashOrder config kernel).setAdditions ++
    (diff order hashOrder config kernel).elementAdditions).foldl
      effect deleted = withSets at *
  have chains := @shape_afterChains order hashOrder config kernel withSets
  have madeChains :
      ((diff order hashOrder config kernel).chainAdditions.foldl effect withSets).chains =
        withSets.chains ++
          (diff order hashOrder config kernel).chainsToModify.map fun entry =>
            (chainMessage entry.1 entry.2.1 entry.2.2).create := by
    rw [chainAdditions, chainChanges,
      chainsToAdd_diff holds, List.nil_append]
      at chainsAccepted ⊢
    refine Along.view_append ?_ chainsAccepted
    intro state entry _ free
    exact chains_newChain fun held => free ⟨exclusive_new, held⟩
  generalize (diff order hashOrder config kernel).chainAdditions.foldl
    effect withSets = withChains at *
  have rules := @shape_afterRules order hashOrder config kernel withChains
  generalize ((diff order hashOrder config kernel).ruleAdditions order).foldl
    effect withChains = withRules at *
  have flowtables := @shape_afterFlowtables order hashOrder config kernel withRules
  have madeFlowtables :
      ((diff order hashOrder config kernel).flowtableAdditions.foldl
          effect withRules).flowtables =
        withRules.flowtables ++ (diff order hashOrder config kernel).flowtablesToAdd.map
            buildFlowtable := by
    refine Along.view_append ?_ flowtablesAccepted
    intro state flowtable _ free
    exact flowtables_addFlowtable fun held => free ⟨exclusive_new, held⟩
  generalize (diff order hashOrder config kernel).flowtableAdditions.foldl
    effect withRules = withFlowtables at *
  simp only [shape, Prod.mk.injEq] at sets chains rules flowtables ⊢
  refine ⟨?_, ?_, ?_⟩
  · rw [flowtables.1, rules.1, chains.1, sets.1, deletedTables]
  · rw [flowtables.2, rules.2.1, madeChains, sets.2.1]
  · rw [madeFlowtables, rules.2.2, chains.2, sets.2.2]

/-- The item of a table under a name. -/
theorem find_named {items : List α} {ownerOf : α → TableKey} {nameOf : α → String}
    (distinct : (items.map fun item => (ownerOf item, nameOf item)).Nodup)
    {owner : TableKey} {name : String} {current : α} :
    ((items.filter fun item => ownerOf item = owner).find? fun item => nameOf item = name) =
        some current ↔
      current ∈ items ∧ ownerOf current = owner ∧ nameOf current = name := by
  rw [find_eq_some_iff_of_distinct (distinct.sublist (filter_sublist.map _)) (owner, name)]
  · rw [mem_filter, decide_eq_true_eq]
    exact ⟨fun found => ⟨found.1.1, Prod.mk.inj found.2⟩,
      fun found => ⟨⟨found.1, found.2.1⟩, Prod.ext found.2.1 found.2.2⟩⟩
  · intro item member
    rw [mem_filter, decide_eq_true_eq] at member
    rw [decide_eq_true_eq, member.2]
    exact ⟨fun isName => Prod.ext rfl isName, fun same => (Prod.mk.inj same).2⟩

theorem find_listChainsIn
    (distinct : (ruleset.chains.map fun chain => (chain.owner, chain.name)).Nodup)
    {owner : TableKey} {name : String} {current : ChainInfo} :
    ((ruleset.listChainsIn owner).find? fun candidate => candidate.name = name) = some current ↔
      current ∈ ruleset.chains ∧ current.owner = owner ∧ current.name = name :=
  find_named distinct

theorem find_listFlowtablesIn
    (distinct : (ruleset.flowtables.map fun flowtable => (flowtable.owner, flowtable.name)).Nodup)
    {owner : TableKey} {name : String} {current : Flowtable} :
    ((ruleset.listFlowtablesIn owner).find? fun candidate => candidate.name = name) = some current ↔
      current ∈ ruleset.flowtables ∧ current.owner = owner ∧ current.name = name :=
  find_named distinct

theorem tablesToModify_eq_nil_iff : (diff order hashOrder config kernel).tablesToModify = [] ↔
      ∀ declared ∈ config.tables, ∀ current, currentTable kernel declared = some current →
          current.flags = declared.flags := by
  rw [eq_nil_iff_forall_not_mem]
  constructor
  · intro none declared member current found
    by_contra differs
    refine none (declared.family, declared.name, declared.flags) ?_
    rw [diff, mem_tablesToModify]
    exact ⟨declared, member, rfl, rfl, current, found, differs⟩
  · rintro same ⟨family, name, flags⟩ isModified
    rw [diff, mem_tablesToModify] at isModified
    obtain ⟨declared, member, _, _, current, found, differs⟩ := isModified
    exact differs (same declared member current found)

theorem mem_chainsToModify_iff
    (distinct : (kernel.chains.map fun chain => (chain.owner, chain.name)).Nodup)
    (holds : HoldsTables config kernel) {table : String} {family : Family} {chain : DeclaredChain} :
    (table, family, chain) ∈ (diff order hashOrder config kernel).chainsToModify ↔
      ∃ declared ∈ config.tables, declared.key = (family, table) ∧ chain ∈ declared.chains ∧
          ∃ current ∈ kernel.chains, current.owner = declared.key ∧ current.name = chain.name ∧
              chainHasDrifted chain current = true := by
  rw [diff, mem_chainsToModify]
  refine exists_congr fun declared => and_congr_right fun member => ?_
  simp only [find_listChainsIn distinct, holds declared member, true_and, and_assoc]

theorem mem_flowtablesToAdd_iff
    (distinct : (kernel.flowtables.map fun flowtable => (flowtable.owner, flowtable.name)).Nodup)
    (holds : HoldsTables config kernel) {flowtable : DeclaredFlowtable} :
    flowtable ∈ (diff order hashOrder config kernel).flowtablesToAdd ↔ ∃ declared ∈ config.tables,
        flowtable ∈ declared.flowtables ∧
          ∀ current ∈ kernel.flowtables, current.owner = declared.key →
            current.name = flowtable.name → flowtableDiffers flowtable current = true := by
  rw [diff, mem_flowtablesToAdd]
  refine exists_congr fun declared => and_congr_right fun member => ?_
  simp only [find_listFlowtablesIn distinct, holds declared member, true_implies, and_imp]

theorem chainHasDrifted_create (table : String) (family : Family) (chain : DeclaredChain) :
    chainHasDrifted chain (chainMessage table family chain).create = false ↔
      chain.HookGiven := by
  obtain ⟨name, hook, priority, policy, chainType, device⟩ := chain
  cases hook with
  | none | some hook =>
      cases priority <;> cases policy <;> cases chainType <;> cases device <;>
        simp [chainHasDrifted, drifted, NewChain.create, chainMessage, DeclaredChain.HookGiven]

theorem flowtableDiffers_build (flowtable : DeclaredFlowtable) :
    flowtableDiffers flowtable (buildFlowtable flowtable) = false := by
  rw [buildFlowtable_eq]
  simp [flowtableDiffers]

/-- A declaration is known by its table and its name. -/
theorem eq_of_declared {config : NftablesConfig} {declaredIn : DeclaredTable → List δ}
    {nameOf : δ → String}
    (distinct : ((config.tables.flatMap fun declared =>
      (declaredIn declared).map fun item => (declared.key, item)).map
        fun entry => (entry.1, nameOf entry.2)).Nodup)
    {first second : DeclaredTable} (firstMember : first ∈ config.tables)
    (secondMember : second ∈ config.tables) {item other : δ} (itemMember : item ∈ declaredIn first)
    (otherMember : other ∈ declaredIn second) (sameKey : first.key = second.key)
    (sameName : nameOf item = nameOf other) : item = other := by
  have isFirst : (first.key, item) ∈ config.tables.flatMap fun declared =>
      (declaredIn declared).map fun item => (declared.key, item) :=
    mem_flatMap.mpr ⟨first, firstMember, mem_map_of_mem itemMember⟩
  have isSecond : (second.key, other) ∈ config.tables.flatMap fun declared =>
      (declaredIn declared).map fun item => (declared.key, item) :=
    mem_flatMap.mpr ⟨second, secondMember, mem_map_of_mem otherMember⟩
  exact (Prod.mk.inj (inj_on_of_nodup_map distinct isFirst isSecond
    (Prod.ext sameKey sameName))).2

/-- Chains and flowtables are distinct in name. -/
structure NamesDistinct (ruleset : Ruleset) : Prop where
  chains : (ruleset.chains.map fun chain => (chain.owner, chain.name)).Nodup
  flowtables : (ruleset.flowtables.map fun flowtable => (flowtable.owner, flowtable.name)).Nodup

theorem namesDistinct_commit (wellFormed : kernel.WellFormed) (operations : List BatchOp) :
    NamesDistinct (kernel.commit operations) := by
  have start : NamesDistinct kernel := ⟨wellFormed.chainsDistinct, wellFormed.flowtablesDistinct⟩
  refine foldl_invariant ?_ start
  intro state distinct operation _
  exact ⟨chainsDistinct_effect distinct.chains operation,
    flowtablesDistinct_effect distinct.flowtables operation⟩

variable {nextOrder : HashOrder}

/-- After an accepted batch, nothing is left to update exactly when chains and
flowtables read back as they are declared. -/
theorem settled_iff (wellFormed : kernel.WellFormed) (distinct : DistinctNames config)
    (holds : HoldsDeclared config kernel)
    (accepted : kernel.Accepts ((diff order hashOrder config kernel).batch order)) :
    Settled (diff order nextOrder config
        (kernel.commit ((diff order hashOrder config kernel).batch order))) ↔
      (∀ declared ∈ config.tables, ∀ chain ∈ declared.chains,
        ∀ current ∈ (kernel.commit ((diff order hashOrder config kernel).batch order)).chains,
          current.owner = declared.key → current.name = chain.name →
            chainHasDrifted chain current = false) ∧
      ∀ declared ∈ config.tables, ∀ flowtable ∈ declared.flowtables,
        ∃ current ∈ (kernel.commit ((diff order hashOrder config kernel).batch order)).flowtables,
          current.owner = declared.key ∧ current.name = flowtable.name ∧
            flowtableDiffers flowtable current = false := by
  have shape := shape_commit wellFormed distinct holds accepted
  have noUpdates := ((accepts_batch_iff wellFormed distinct holds).mp accepted).1
  have distinctAfter := namesDistinct_commit wellFormed
    ((diff order hashOrder config kernel).batch order)
  have sameTables : (kernel.commit ((diff order hashOrder config kernel).batch order)).tables =
        kernel.tables :=
    congrArg Prod.fst shape
  generalize kernel.commit ((diff order hashOrder config kernel).batch order) = after at *
  have holdsAfter : HoldsTables config after := by
    intro declared member
    rw [Ruleset.HasTable, sameTables]
    exact holds.tables declared member
  have tablesSettled : (diff order nextOrder config after).tablesToModify = [] := by
    rw [tablesToModify_eq_nil_iff] at noUpdates ⊢
    simp only [currentTable, listTables, sameTables] at noUpdates ⊢
    exact noUpdates
  constructor
  · intro settled
    refine ⟨?_, ?_⟩
    · intro declared member chain chainMember current currentMember isOwner isName
      by_contra differs
      have isModified : (declared.name, declared.family, chain) ∈
          (diff order nextOrder config after).chainsToModify := by
        rw [mem_chainsToModify_iff distinctAfter.chains holdsAfter]
        exact ⟨declared, member, rfl, chainMember, current, currentMember,
          isOwner, isName, by simpa using differs⟩
      rw [settled.chains] at isModified
      cases isModified
    · intro declared member flowtable flowtableMember
      by_contra none
      push Not at none
      have isAdded : flowtable ∈ (diff order nextOrder config after).flowtablesToAdd := by
        rw [mem_flowtablesToAdd_iff distinctAfter.flowtables holdsAfter]
        refine ⟨declared, member, flowtableMember, ?_⟩
        intro current currentMember isOwner isName
        simpa using none current currentMember isOwner isName
      rw [settled.flowtables] at isAdded
      cases isAdded
  · rintro ⟨chains, flowtables⟩
    refine ⟨tablesSettled, ?_, ?_⟩
    · rw [eq_nil_iff_forall_not_mem]
      rintro ⟨table, family, chain⟩ isModified
      rw [mem_chainsToModify_iff distinctAfter.chains holdsAfter] at isModified
      obtain ⟨declared, member, _, chainMember, current, currentMember,
        isOwner, isName, differs⟩ := isModified
      rw [chains declared member chain chainMember current currentMember isOwner isName] at differs
      cases differs
    · rw [eq_nil_iff_forall_not_mem]
      intro flowtable isAdded
      rw [mem_flowtablesToAdd_iff distinctAfter.flowtables holdsAfter] at isAdded
      obtain ⟨declared, member, flowtableMember, differs⟩ := isAdded
      obtain ⟨current, currentMember, isOwner, isName, same⟩ :=
        flowtables declared member flowtable flowtableMember
      rw [differs current currentMember isOwner isName] at same
      cases same

/-- The batch is accepted and settles what has drifted exactly when drift
converges. -/
theorem batch_converges_iff (wellFormed : kernel.WellFormed) (distinct : DistinctNames config)
    (holds : HoldsDeclared config kernel) :
    (kernel.Accepts ((diff order hashOrder config kernel).batch order) ∧
      Settled (diff order nextOrder config
        (kernel.commit ((diff order hashOrder config kernel).batch order)))) ↔
      DriftConverges config kernel := by
  have flowtableKey : ∀ declared : DeclaredTable, ∀ flowtable ∈ declared.flowtables,
        declared.key = (flowtable.family, flowtable.table) := by
    intro declared flowtable member
    obtain ⟨sameTable, sameFamily⟩ := declared.flowtablesOwned flowtable member
    rw [sameTable, sameFamily, DeclaredTable.key]
  have drifted_iff := @mem_chainsToModify_iff order hashOrder config kernel
    wellFormed.chainsDistinct holds.tables
  have differs_iff := @mem_flowtablesToAdd_iff order hashOrder config kernel
    wellFormed.flowtablesDistinct holds.tables
  have accepts_iff := @accepts_batch_iff order hashOrder config kernel wellFormed distinct holds
  constructor
  · rintro ⟨accepted, settled⟩
    obtain ⟨noUpdates, chainsLost, flowtablesLost⟩ := accepts_iff.mp accepted
    have shape := shape_commit wellFormed distinct holds accepted
    rw [settled_iff wellFormed distinct holds accepted] at settled
    obtain ⟨chainsSettled, flowtablesSettled⟩ := settled
    have chainsAfter := congrArg (·.2.1) shape
    have flowtablesAfter := congrArg (·.2.2) shape
    simp only [Ruleset.shape] at chainsAfter flowtablesAfter
    refine ⟨(tablesToModify_eq_nil_iff).mp noUpdates, ?_, ?_⟩
    · intro declared member chain chainMember current currentMember isOwner isName differs
      have isModified : (declared.name, declared.family, chain) ∈
          (diff order hashOrder config kernel).chainsToModify :=
        drifted_iff.mpr ⟨declared, member, rfl, chainMember, current,
          currentMember, isOwner, isName, differs⟩
      refine ⟨chainsLost _ isModified, ?_⟩
      rw [← chainHasDrifted_create declared.name declared.family chain]
      refine chainsSettled declared member chain chainMember _ ?_ rfl rfl
      rw [chainsAfter]
      exact mem_append_right _ (mem_map_of_mem isModified)
    · intro declared member flowtable flowtableMember current currentMember isOwner isName
      have ownKey := flowtableKey declared flowtable flowtableMember
      constructor
      · intro differs
        have isAdded : flowtable ∈ (diff order hashOrder config kernel).flowtablesToAdd := by
          refine differs_iff.mpr ⟨declared, member, flowtableMember, ?_⟩
          intro other otherMember otherOwner otherName
          rw [inj_on_of_nodup_map wellFormed.flowtablesDistinct
            otherMember currentMember (Prod.ext
              (otherOwner.trans isOwner.symm) (otherName.trans isName.symm))]
          exact differs
        have lost := flowtablesLost flowtable isAdded
        rw [← ownKey] at lost
        exact lost
      · -- it is there afterwards, so it was made from this declaration
        intro lost
        obtain ⟨found, foundMember, foundOwner, foundName, _⟩ :=
          flowtablesSettled declared member flowtable flowtableMember
        rw [flowtablesAfter, mem_append, mem_flowtables_afterDeletions
            wellFormed, mem_map] at foundMember
        rcases foundMember with ⟨_, notLost⟩ | ⟨other, isAdded, rfl⟩
        · rw [foundOwner, foundName] at notLost
          exact absurd lost notLost
        · obtain ⟨otherDeclared, otherMember, otherFlowtable, differs⟩ := differs_iff.mp isAdded
          rw [buildFlowtable_eq] at foundOwner foundName
          have otherKey := flowtableKey otherDeclared other otherFlowtable
          have sameKey : otherDeclared.key = declared.key := otherKey.trans foundOwner
          have same := eq_of_declared distinct.flowtables otherMember member otherFlowtable
            flowtableMember sameKey foundName
          rw [← same]
          exact differs current currentMember (isOwner.trans sameKey.symm)
            (isName.trans foundName.symm)
  · intro converges
    have accepted : kernel.Accepts ((diff order hashOrder config kernel).batch order) := by
      rw [accepts_iff]
      refine ⟨(tablesToModify_eq_nil_iff).mpr converges.tables, ?_, ?_⟩
      · rintro ⟨table, family, chain⟩ isModified
        obtain ⟨declared, member, sameKey, chainMember, current,
          currentMember, isOwner, isName, differs⟩ :=
          drifted_iff.mp isModified
        have lost := (converges.chains declared member chain chainMember
          current currentMember isOwner isName differs).1
        rw [sameKey] at lost
        exact lost
      · intro flowtable isAdded
        obtain ⟨declared, member, flowtableMember, differs⟩ := differs_iff.mp isAdded
        obtain ⟨current, currentMember, isOwner, isName⟩ :=
          holds.flowtables declared member flowtable flowtableMember
        have lost := (converges.flowtables declared member flowtable
          flowtableMember current currentMember isOwner isName).mp
            (differs current currentMember isOwner isName)
        rw [flowtableKey declared flowtable flowtableMember] at lost
        exact lost
    refine ⟨accepted, ?_⟩
    have shape := shape_commit wellFormed distinct holds accepted
    have chainsAfter := congrArg (·.2.1) shape
    have flowtablesAfter := congrArg (·.2.2) shape
    simp only [Ruleset.shape] at chainsAfter flowtablesAfter
    rw [settled_iff wellFormed distinct holds accepted]
    refine ⟨?_, ?_⟩
    · intro declared member chain chainMember current currentMember isOwner isName
      rw [chainsAfter, mem_append, mem_chains_afterDeletions wellFormed, mem_map] at currentMember
      rcases currentMember with ⟨currentMember, notLost⟩ | ⟨⟨table, family, other⟩, isModified, rfl⟩
      · by_contra differs
        rw [isOwner, isName] at notLost
        exact notLost (converges.chains declared member chain chainMember
          current currentMember isOwner isName (by simpa using differs)).1
      · obtain ⟨otherDeclared, otherMember, otherKey, otherChain, before,
          beforeMember, beforeOwner, beforeName, differs⟩ :=
          drifted_iff.mp isModified
        have sameKey : otherDeclared.key = declared.key := otherKey.trans isOwner
        have same := eq_of_declared distinct.chains otherMember member otherChain chainMember
          sameKey isName
        rw [← same, chainHasDrifted_create]
        exact (converges.chains otherDeclared otherMember other otherChain
          before beforeMember beforeOwner beforeName differs).2
    · intro declared member flowtable flowtableMember
      obtain ⟨current, currentMember, isOwner, isName⟩ :=
        holds.flowtables declared member flowtable flowtableMember
      have converges_iff := converges.flowtables declared member flowtable
        flowtableMember current currentMember isOwner isName
      rw [flowtablesAfter]
      by_cases lost : Lost config kernel declared.key (.flowtable flowtable.name)
      · have isAdded : flowtable ∈ (diff order hashOrder config kernel).flowtablesToAdd := by
          refine differs_iff.mpr ⟨declared, member, flowtableMember, ?_⟩
          intro other otherMember otherOwner otherName
          exact (converges.flowtables declared member flowtable
            flowtableMember other otherMember otherOwner otherName).mpr lost
        refine ⟨buildFlowtable flowtable, mem_append_right _ (mem_map_of_mem isAdded), ?_,
          ?_, flowtableDiffers_build flowtable⟩
        · rw [buildFlowtable_eq]
          exact (flowtableKey declared flowtable flowtableMember).symm
        · rw [buildFlowtable_eq]
      · refine ⟨current, mem_append_left _ ?_, isOwner, isName, ?_⟩
        · rw [mem_flowtables_afterDeletions wellFormed, isOwner, isName]
          exact ⟨currentMember, lost⟩
        · rw [← converges_iff] at lost
          simpa using lost

theorem namesValid_of_holds (wellFormed : kernel.WellFormed) (holds : HoldsDeclared config kernel) :
    (diff order hashOrder config kernel).NamesValid := by
  rintro ⟨table, family, chain⟩ isChange
  rw [chainChanges, chainsToAdd_diff holds, List.nil_append, mem_chainsToModify_iff
      wellFormed.chainsDistinct holds.tables] at isChange
  obtain ⟨declared, member, sameKey, chainMember, current, currentMember, _, isName, _⟩ := isChange
  obtain ⟨held, heldMember, heldKey⟩ := holds.tables declared member
  have tableValid := wellFormed.tableNames held heldMember
  have chainValid := wellFormed.chainNames current currentMember
  rw [(Prod.mk.inj (heldKey.trans sameKey)).2] at tableValid
  rw [isName] at chainValid
  exact ⟨tableValid, chainValid⟩

variable (order hashOrder config kernel nextOrder)

/-- Applying a diff is accepted and leaves nothing to update exactly when drift
converges. -/
theorem apply_converges_iff (wellFormed : kernel.WellFormed) (distinct : DistinctNames config)
    (holds : HoldsDeclared config kernel) :
    (∃ operations, (diff order hashOrder config kernel).apply order = .ok operations ∧
        kernel.Accepts operations ∧
          Settled (diff order nextOrder config (kernel.commit operations))) ↔
      DriftConverges config kernel := by
  rw [← batch_converges_iff wellFormed distinct holds]
  constructor
  · rintro ⟨operations, applied, accepted, settled⟩
    rw [apply_eq_ok] at applied
    rw [applied.2] at accepted settled
    exact ⟨accepted, settled⟩
  · rintro ⟨accepted, settled⟩
    exact ⟨_, (apply_eq_ok order _ _).mpr ⟨namesValid_of_holds wellFormed holds, rfl⟩,
      accepted, settled⟩

end Drift

/-- A table with a base chain that drops by policy. -/
def dropping : NftablesConfig :=
  NftablesConfig.new.table "filter" .inet fun declared =>
    declared.chain
      { DeclaredChain.new "input" with
        hook := some .input
        policy := some .drop }

/-- A kernel with the table and the chain, with some policy. -/
def policyKernel (policy : Policy) : Ruleset where
  tables := [{ name := "filter", family := .inet, flags := 0 }]
  chains :=
    [NewChain.create (chainMessage "filter" .inet
      { DeclaredChain.new "input" with
        hook := some .input
        policy := some policy })]
  rules := []
  sets := []
  flowtables := []
  nextHandle := 1

theorem policyKernel_wellFormed (policy : Policy) : (policyKernel policy).WellFormed := by
  cases policy <;> decide

theorem dropping_distinctNames : DistinctNames dropping :=
  ⟨by decide, by decide, by decide⟩

theorem policyKernel_holdsDeclared (policy : Policy) :
    HoldsDeclared dropping (policyKernel policy) where
  tables := by
    intro declared member
    cases mem_singleton.mp member
    exact ⟨_, mem_singleton_self _, rfl⟩
  chains := by
    intro declared member chain chainMember
    cases mem_singleton.mp member
    cases mem_singleton.mp chainMember
    exact ⟨_, mem_singleton_self _, rfl, rfl⟩
  flowtables := by
    intro declared member flowtable flowtableMember
    cases mem_singleton.mp member
    cases flowtableMember

/-- With the declared policy, there is nothing to update. -/
theorem apply_converges_iff_same : ∃ operations,
      (diff .little .insertion dropping (policyKernel .drop)).apply .little = .ok operations ∧
        (policyKernel .drop).Accepts operations ∧
          Settled (diff .little .insertion dropping ((policyKernel .drop).commit operations)) := by
  refine (apply_converges_iff .little .insertion dropping (policyKernel .drop)
    .insertion (policyKernel_wellFormed .drop) dropping_distinctNames
    (policyKernel_holdsDeclared .drop)).mpr ⟨?_, ?_, ?_⟩
  · intro declared member current found
    cases mem_singleton.mp member
    have currentMember := mem_of_find?_eq_some found
    cases mem_singleton.mp currentMember
    rfl
  · intro declared member chain chainMember current currentMember _ _ differs
    cases mem_singleton.mp member
    cases mem_singleton.mp chainMember
    cases mem_singleton.mp currentMember
    exact absurd differs (by decide)
  · intro declared member flowtable flowtableMember
    cases mem_singleton.mp member
    cases flowtableMember

/-- With another policy, the update is rejected: the chain's name is taken. -/
theorem dropping_rejected : (policyKernel .accept).WellFormed ∧ DistinctNames dropping ∧
      HoldsDeclared dropping (policyKernel .accept) ∧
      ¬ ∃ operations, (diff .little .insertion dropping (policyKernel .accept)).apply
            .little = .ok operations ∧
          (policyKernel .accept).Accepts operations ∧
            Settled (diff .little .insertion dropping
              ((policyKernel .accept).commit operations)) := by
  refine ⟨policyKernel_wellFormed .accept, dropping_distinctNames,
    policyKernel_holdsDeclared .accept, ?_⟩
  rintro ⟨operations, applied, accepted, settled⟩
  rw [apply_eq_ok] at applied
  rw [applied.2] at accepted settled
  have converges := (@batch_converges_iff .little .insertion dropping
    (policyKernel .accept) .insertion (policyKernel_wellFormed .accept)
    dropping_distinctNames (policyKernel_holdsDeclared .accept)).mp ⟨accepted, settled⟩
  obtain ⟨_, declared, member, _, undeclared⟩ :=
    (converges.chains _ (mem_singleton_self _) _
      (mem_singleton_self _) _ (mem_singleton_self _) rfl rfl
      (by decide)).1
  cases mem_singleton.mp member
  exact undeclared ⟨_, mem_singleton_self _, rfl⟩

end Nlink.Nftables
