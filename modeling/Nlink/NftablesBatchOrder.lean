import Nlink.NftablesBatchParts

namespace Nlink.Nftables

open Foundation Netlink List Ruleset NftablesDiff

/-!
# The order of a batch

The kernel rejects an operation that creates an object before what it depends
on, and one that deletes an object that a rule still refers to.  The batch adds
flowtables after the rules that offload to them, and replaces rules after it
has deleted the objects to which their old bodies refer.  Its operations are
legal where they stand exactly when neither matters.
-/

/-- The dependencies of an operation are met, and no rule depends on what it
deletes. -/
def Ruleset.Legal (ruleset : Ruleset) : BatchOp → Prop
  | .newChain message => ruleset.HasTable message.owner
  | .newSet message => ruleset.HasTable message.owner
  | .newFlowtable message => ruleset.HasTable message.owner
  | .newRule message =>
      ruleset.HasChain message.owner message.chain ∧ ∀ reference ∈ message.references,
          ruleset.Resolves message.owner reference
  | .delSet family table name =>
      ∀ rule ∈ ruleset.rules, rule.owner = (family, table) → .set name ∉ rule.references
  | .delChain family table name =>
      ∀ rule ∈ ruleset.rules, rule.owner = (family, table) → .chain name ∉ rule.references
  | .delFlowtable family table name =>
      ∀ rule ∈ ruleset.rules, rule.owner = (family, table) → .flowtable name ∉ rule.references
  | _ => True

/-- The rules that a configuration declares stay in their table and refer to
objects that it declares. -/
def SelfContained (config : NftablesConfig) : Prop :=
  ∀ declared ∈ config.tables, ∀ rule ∈ declared.rules,
    (rule.body.family, rule.body.table) = declared.key ∧
      DeclaresObject declared (.chain rule.body.chain) ∧
        ∀ reference ∈ rule.body.references, DeclaresObject declared reference

instance (config : NftablesConfig) : Decidable (SelfContained config) :=
  inferInstanceAs (Decidable (∀ declared ∈ config.tables, ∀ rule ∈ declared.rules,
      (rule.body.family, rule.body.table) = declared.key ∧
        DeclaresObject declared (.chain rule.body.chain) ∧ ∀ reference ∈ rule.body.references,
            DeclaresObject declared reference))

/-- The references of the kernel's rules are resolved. -/
def Resolved (kernel : Ruleset) : Prop :=
  ∀ rule ∈ kernel.rules, ∀ reference ∈ rule.references, kernel.Resolves rule.owner reference

/-- The kernel's rules all have keys and are in declared chains. -/
def Managed (config : NftablesConfig) (kernel : Ruleset) : Prop :=
  ∀ rule ∈ kernel.rules, rule.comment ≠ none ∧
    ∃ declared ∈ config.tables, declared.key = rule.owner ∧
      DeclaresObject declared (.chain rule.chain)

/-- A property that is declared of a chain differs from the kernel's. -/
def Drifts (config : NftablesConfig) (kernel : Ruleset) (owner : TableKey) (name : String) : Prop :=
  ∃ declared ∈ config.tables, declared.key = owner ∧ ∃ chain ∈ declared.chains, chain.name = name ∧
      ∃ current,
        ((kernel.listChainsIn owner).find? fun candidate => candidate.name = name) = some current ∧
          chainHasDrifted chain current = true

/-- A declared object is there when the rules are written: no declaration
leaves it out, or it is a chain that is sent again because it has drifted.  A
flowtable is there only if the kernel holds it. -/
def Available (config : NftablesConfig) (kernel : Ruleset) (owner : TableKey) : Reference → Prop
  | .set name => ¬ Lost config kernel owner (.set name)
  | .chain name => Lost config kernel owner (.chain name) → Drifts config kernel owner name
  | .flowtable name => kernel.HasFlowtable owner name ∧ ¬ Lost config kernel owner (.flowtable name)

/-- No rule that stays refers to an object that is deleted while it is there. -/
structure DeletionsHarmless (config : NftablesConfig) (kernel : Ruleset) : Prop where
  sets : ∀ rule ∈ kernel.rules, Stays config rule → ∀ name, .set name ∈ rule.references →
      ¬ Lost config kernel rule.owner (.set name)
  /-- The rule's own chain is deleted before the chain to which it jumps. -/
  chains : ∀ rule ∈ kernel.rules, Stays config rule → ∀ name, .chain name ∈ rule.references →
      ∀ before after, lostChains config kernel = before ++ (rule.owner, name) :: after →
          (rule.owner, rule.chain) ∈ before
  /-- The rule's own chain is deleted before all flowtables. -/
  flowtables : ∀ rule ∈ kernel.rules, Stays config rule →
    ∀ name, .flowtable name ∈ rule.references → Lost config kernel rule.owner (.flowtable name) →
        Lost config kernel rule.owner (.chain rule.chain)

/-- The condition under which the order of the batch does no harm. -/
structure OrderHarmless (order : ByteOrder) (config : NftablesConfig) (kernel : Ruleset) : Prop
    extends DeletionsHarmless config kernel where
  /-- What a rule that is not in force depends on is there. -/
  written : ∀ declared ∈ config.tables, ∀ rule ∈ declared.rules,
    ¬ InForce order kernel declared rule →
      ∀ reference ∈ .chain rule.body.chain :: rule.body.references,
        Available config kernel declared.key reference

theorem legal_delete (ruleset : Ruleset) (owner : TableKey) (reference : Reference) :
    ruleset.Legal (.delete owner reference) ↔ ∀ rule ∈ ruleset.rules, rule.owner = owner →
        reference ∉ rule.references := by
  cases reference <;> exact Iff.rfl

section Order

variable {order : ByteOrder}
variable {hashOrder : HashOrder}
variable {config : NftablesConfig}
variable {kernel : Ruleset}

theorem along_deletions_of_kind {kind : String → Reference} {operations : List BatchOp}
    (isDeletion : ∀ operation, operation ∈ operations ↔
      ∃ owner name, Lost config kernel owner (kind name) ∧ operation = .delete owner (kind name))
    (unchanged : ∀ state : Ruleset, ∀ owner name,
      (state.effect (.delete owner (kind name))).rules = state.rules)
    (state : Ruleset) :
    Along effect Ruleset.Legal state operations ↔
      ∀ rule ∈ state.rules, ∀ name, kind name ∈ rule.references →
        ¬ Lost config kernel rule.owner (kind name) := by
  have seen : ∀ first second : Ruleset, first.rules = second.rules → ∀ operation ∈ operations,
        (first.Legal operation ↔ second.Legal operation) := by
    intro first second same operation member
    obtain ⟨owner, name, _, rfl⟩ := (isDeletion operation).mp member
    rw [legal_delete, legal_delete, same]
  have unchanged' : ∀ state : Ruleset, ∀ operation ∈ operations,
      (state.effect operation).rules = state.rules := by
    intro state operation member
    obtain ⟨owner, name, _, rfl⟩ := (isDeletion operation).mp member
    exact unchanged state owner name
  rw [along_iff_start unchanged' seen]
  constructor
  · intro legal rule member name isReference lost
    have legalDelete := legal _ ((isDeletion _).mpr ⟨rule.owner, name, lost, rfl⟩)
    rw [legal_delete] at legalDelete
    exact legalDelete rule member rfl isReference
  · intro harmless operation member
    obtain ⟨owner, name, lost, rfl⟩ := (isDeletion operation).mp member
    rw [legal_delete]
    rintro rule ruleMember rfl isReference
    exact harmless rule ruleMember name isReference lost

theorem along_chainDeletions (wellFormed : kernel.WellFormed) : Along effect Ruleset.Legal
        (((diff order hashOrder config kernel).ruleDeletions ++
          (diff order hashOrder config kernel).elementRemovals ++
          (diff order hashOrder config kernel).setDeletions).foldl effect kernel)
        (diff order hashOrder config kernel).chainDeletions ↔
      ∀ rule ∈ kernel.rules, Stays config rule → ∀ name, .chain name ∈ rule.references →
          ∀ before after, lostChains config kernel = before ++ (rule.owner, name) :: after →
              (rule.owner, rule.chain) ∈ before := by
  rw [along_iff_split, chainDeletions_diff wellFormed]
  constructor
  · intro legal rule member stays name isReference before after isSplit
    have legalDelete := legal _ (.delete rule.owner (.chain name)) _ (by
      rw [isSplit, map_append, map_cons])
    rw [legal_delete, ← foldl_append] at legalDelete
    by_contra kept
    exact legalDelete rule ((mem_rules_afterChains wellFormed
        before).mpr ⟨member, stays, kept⟩) rfl isReference
  · intro harmless before operation after isSplit
    obtain ⟨first, rest, isLost, rfl, isRest⟩ := map_eq_append_iff.mp isSplit
    obtain ⟨⟨owner, name⟩, others, rfl, rfl, rfl⟩ := map_eq_cons_iff.mp isRest
    rw [legal_delete, ← foldl_append]
    rintro rule member rfl isReference
    rw [mem_rules_afterChains wellFormed] at member
    exact member.2.2 (harmless rule member.1 member.2.1 name isReference first others isLost)

/-- The deletions are legal when no rule that stays refers to what they delete
while it is there. -/
theorem along_deletions (wellFormed : kernel.WellFormed) : Along effect Ruleset.Legal kernel
        (diff order hashOrder config kernel).deletions ↔
      DeletionsHarmless config kernel := by
  have rulesLegal : ∀ state : Ruleset, ∀ operation ∈
      (diff order hashOrder config kernel).ruleDeletions,
      state.Legal operation := by
    intro state operation member
    obtain ⟨entry, _, rfl⟩ := mem_map.mp member
    trivial
  have elementsLegal : ∀ state : Ruleset, ∀ operation ∈
      (diff order hashOrder config kernel).elementRemovals,
      state.Legal operation := by
    intro state operation member
    obtain ⟨entry, _, rfl⟩ := mem_map.mp member
    trivial
  have rulesAtSets : ∀ rule : RuleInfo, rule ∈
          (((diff order hashOrder config kernel).ruleDeletions ++
            (diff order hashOrder config kernel).elementRemovals).foldl
              effect kernel).rules ↔
        rule ∈ kernel.rules ∧ Stays config rule := by
    intro rule
    have removals := fun operation member =>
      @element_and_set_deletions order hashOrder config kernel wellFormed
        operation (mem_append_left _ member)
    rw [mem_rules_afterDeletions wellFormed (fun operation member => (removals operation member).1),
      and_iff_left fun operation member => (removals operation member).2 rule]
  have rulesAtFlowtables :=
    @mem_rules_afterChains order hashOrder config kernel wellFormed (lostChains config kernel)
  rw [← @chainDeletions_diff order hashOrder _ _ wellFormed] at rulesAtFlowtables
  rw [deletions_diff, along_append, along_append, along_append, along_append, along_chainDeletions
    wellFormed, along_deletions_of_kind (fun _ => mem_setDeletions wellFormed) (fun _ _ _ => rfl),
    along_deletions_of_kind (fun _ => mem_flowtableDeletions wellFormed) (fun _ _ _ => rfl)]
  simp only [rulesAtSets, rulesAtFlowtables, mem_lostChains, and_imp]
  constructor
  · rintro ⟨⟨⟨_, sets⟩, chains⟩, flowtables⟩
    refine ⟨sets, chains, ?_⟩
    intro rule member stays name isReference lost
    by_contra kept
    exact flowtables rule member stays kept name isReference lost
  · intro harmless
    refine ⟨⟨⟨⟨along_of_always rulesLegal _, along_of_always elementsLegal _⟩,
      harmless.sets⟩, harmless.chains⟩, ?_⟩
    intro rule member stays kept name isReference lost
    exact kept (harmless.flowtables rule member stays name isReference lost)

theorem legal_of_holdsTables {ruleset : Ruleset} (holds : HoldsTables config ruleset)
    {operation : BatchOp}
    (member : operation ∈ (diff order hashOrder config kernel).objectAdditions ++
        (diff order hashOrder config kernel).flowtableAdditions) : ruleset.Legal operation := by
  simp only [objectAdditions, tableUpdates, setAdditions,
    elementAdditions, chainAdditions, chainChanges,
    flowtableAdditions, mem_append, mem_map] at member
  rcases member with (((⟨entry, _, rfl⟩ | ⟨⟨⟨table, family, set⟩, setId⟩, isAdded, rfl⟩) | ⟨entry,
    _, rfl⟩) | ⟨⟨table, family, chain⟩, isChain, rfl⟩) | ⟨flowtable, isAdded, rfl⟩
  · trivial
  · have isSet := fst_mem_of_mem_zipIdx isAdded
    rw [diff, mem_setsToAdd] at isSet
    obtain ⟨declared, declaredMember, sameKey, _⟩ := isSet
    have held := holds declared declaredMember
    rw [sameKey] at held
    exact held
  · trivial
  · rcases isChain with isAdded | isModified
    · rw [diff, mem_chainsToAdd] at isAdded
      obtain ⟨declared, declaredMember, sameKey, _⟩ := isAdded
      have held := holds declared declaredMember
      rw [sameKey] at held
      exact held
    · rw [diff, mem_chainsToModify] at isModified
      obtain ⟨declared, declaredMember, sameKey, _⟩ := isModified
      have held := holds declared declaredMember
      rw [sameKey] at held
      exact held
  · rw [diff, mem_flowtablesToAdd] at isAdded
    obtain ⟨declared, declaredMember, flowtableMember, _⟩ := isAdded
    obtain ⟨sameTable, sameFamily⟩ := declared.flowtablesOwned flowtable flowtableMember
    have sameKey : declared.key = (flowtable.family, flowtable.table) := by
      rw [sameTable, sameFamily, DeclaredTable.key]
    have held := holds declared declaredMember
    rw [sameKey] at held
    rw [buildFlowtable_eq]
    exact held

section

variable (wellFormed : kernel.WellFormed)

include wellFormed

/-- A rule may be written when its chain and what it refers to are there. -/
theorem along_ruleAdditions (ruleset : Ruleset) :
    Along effect Ruleset.Legal ruleset
        ((diff order hashOrder config kernel).ruleAdditions order) ↔
      ∀ declared ∈ config.tables, ∀ rule ∈ declared.rules, ¬ InForce order kernel declared rule →
          ∀ reference ∈ .chain rule.body.chain :: rule.body.references,
            ruleset.Resolves (rule.body.family, rule.body.table)
              reference := by
  have isWritten : ∀ state : Ruleset, ∀ rule : DeclaredRule, ∀ handle,
      (state.Legal (Transaction.addRule order (sentBody rule)) ↔
          ∀ reference ∈ .chain rule.body.chain :: rule.body.references,
            state.Resolves (rule.body.family, rule.body.table) reference) ∧
        (state.Legal (Transaction.replaceRule order (sentBody rule) handle) ↔
          ∀ reference ∈ .chain rule.body.chain :: rule.body.references,
            state.Resolves (rule.body.family, rule.body.table) reference) := by
    intro state rule handle
    rw [sentBody_eq, forall_mem_cons]
    exact ⟨Iff.rfl, Iff.rfl⟩
  -- writing a rule changes no object, so all are checked in one state
  have unchanged : ∀ state : Ruleset, ∀ operation ∈
      (diff order hashOrder config kernel).ruleAdditions order,
      ((state.effect operation).chains, (state.effect operation).sets,
          (state.effect operation).flowtables) =
        (state.chains, state.sets, state.flowtables) := by
    intro state operation member
    obtain ⟨_, _, _, _, ⟨_, rfl⟩ | ⟨_, _, rfl⟩⟩ := (mem_ruleAdditions wellFormed).mp member
    · rfl
    · rfl
  have resolvesSeen : ∀ first second : Ruleset, (first.chains, first.sets, first.flowtables) =
        (second.chains, second.sets, second.flowtables) →
        ∀ owner reference,
          (first.Resolves owner reference ↔ second.Resolves owner reference) := by
    rintro first second same owner reference
    obtain ⟨sameChains, sameSets, sameFlowtables⟩ :
        first.chains = second.chains ∧ first.sets = second.sets ∧
          first.flowtables = second.flowtables := by
      simpa using same
    cases reference with
    | set name => simp only [Ruleset.Resolves, Ruleset.HasSet, sameSets]
    | chain name => simp only [Ruleset.Resolves, Ruleset.HasChain, sameChains]
    | flowtable name => simp only [Ruleset.Resolves, Ruleset.HasFlowtable, sameFlowtables]
  have seen : ∀ first second : Ruleset, (first.chains, first.sets, first.flowtables) =
        (second.chains, second.sets, second.flowtables) →
        ∀ operation ∈ (diff order hashOrder config kernel).ruleAdditions order,
          (first.Legal operation ↔ second.Legal operation) := by
    intro first second same operation member
    obtain ⟨_, _, rule, _, ⟨_, rfl⟩ | ⟨handle, _, rfl⟩⟩ := (mem_ruleAdditions wellFormed).mp member
    · rw [(isWritten first rule 0).1, (isWritten second rule 0).1]
      simp only [resolvesSeen first second same]
    · rw [(isWritten first rule handle).2, (isWritten second rule handle).2]
      simp only [resolvesSeen first second same]
  rw [along_iff_start unchanged seen]
  constructor
  · intro legal declared declaredMember rule ruleMember notInForce
    rw [← ruleAction_eq_keep] at notInForce
    cases action : ruleAction order
        (kernel.rulesIn declared.key rule.chain) rule with
    | keep => exact absurd action notInForce
    | add =>
        exact (isWritten ruleset rule 0).1.mp (legal _ ((mem_ruleAdditions wellFormed).mpr
            ⟨declared, declaredMember, rule, ruleMember, Or.inl ⟨action, rfl⟩⟩))
    | replace handle =>
        exact (isWritten ruleset rule handle).2.mp (legal _ ((mem_ruleAdditions wellFormed).mpr
            ⟨declared, declaredMember, rule, ruleMember, Or.inr ⟨handle, action, rfl⟩⟩))
  · intro written operation member
    obtain ⟨declared, declaredMember, rule, ruleMember, ⟨isAdd, rfl⟩ | ⟨handle, isReplace, rfl⟩⟩ :=
      (mem_ruleAdditions wellFormed).mp member
    · rw [(isWritten ruleset rule 0).1]
      refine written declared declaredMember rule ruleMember ?_
      rw [← ruleAction_eq_keep, isAdd]
      exact RuleAction.noConfusion
    · rw [(isWritten ruleset rule handle).2]
      refine written declared declaredMember rule ruleMember ?_
      rw [← ruleAction_eq_keep, isReplace]
      exact RuleAction.noConfusion

theorem exists_chainChanges_iff {owner : TableKey} {name : String}
    (held : kernel.Resolves owner (.chain name)) :
    (∃ chain, (owner.2, owner.1, chain) ∈ (diff order hashOrder config kernel).chainChanges ∧
          chain.name = name) ↔
      Drifts config kernel owner name := by
  have tableHeld := hasTable_of_resolves wellFormed held
  constructor
  · rintro ⟨chain, isChange, rfl⟩
    rcases mem_append.mp isChange with isAdded | isModified
    · rw [diff, mem_chainsToAdd] at isAdded
      obtain ⟨declared, _, sameKey, _, missing⟩ := isAdded
      have same : declared.key = owner := sameKey
      rw [same] at missing
      exact absurd held (missing tableHeld)
    · rw [diff, mem_chainsToModify] at isModified
      obtain ⟨declared, member, sameKey, chainMember, _, current, found, differs⟩ := isModified
      have same : declared.key = owner := sameKey
      rw [same] at found
      exact ⟨declared, member, same, chain, chainMember, rfl, current, found, differs⟩
  · rintro ⟨declared, member, rfl, chain, chainMember, rfl, current, found, differs⟩
    refine ⟨chain, mem_append_right _ ?_, rfl⟩
    rw [diff, mem_chainsToModify]
    exact ⟨declared, member, rfl, chainMember, tableHeld, current, found, differs⟩

/-- The objects that are there when the rules are written. -/
theorem resolves_beforeRules {declared : DeclaredTable}
    (member : declared ∈ config.tables) {reference : Reference}
    (declares : DeclaresObject declared reference) :
    (((diff order hashOrder config kernel).deletions ++
        (diff order hashOrder config kernel).tableCreations ++
        (diff order hashOrder config kernel).objectAdditions).foldl
          effect kernel).Resolves declared.key reference ↔
      Available config kernel declared.key reference := by
  have each : ∀ state : Ruleset, ∀ operation ∈
      (diff order hashOrder config kernel).tableCreations ++
        (diff order hashOrder config kernel).objectAdditions,
      ((state.effect operation).Resolves declared.key reference ↔
        state.Resolves declared.key reference ∨ operation.makes declared.key reference) := by
    intro state operation member
    have removesNothing : ¬ operation.removes declared.key reference := by
      rcases mem_objectAdditions member with ⟨_, _, _, _, rfl⟩ |
        ⟨_, _, _, _, _, rfl⟩ | ⟨_, _, _, _, rfl⟩ | ⟨_, _, _, _, rfl⟩ <;>
      cases reference <;>
      simp [BatchOp.removes, BatchOp.removesTable, BatchOp.delete, Transaction.addSet]
    rw [resolves_effect, and_iff_left removesNothing]
  rw [List.append_assoc, foldl_append, foldl_or_iff effect (Ruleset.Resolves ·
    declared.key reference) each, resolves_afterDeletions wellFormed, exists_makes_iff]
  cases reference with
  | set name =>
      by_cases held : kernel.Resolves declared.key (.set name)
      · refine (or_iff_left ?_).trans (and_iff_right held)
        rintro ⟨set, isAdded, rfl⟩
        rw [diff, mem_setsToAdd] at isAdded
        obtain ⟨other, _, sameKey, _, missing⟩ := isAdded
        have same : other.key = declared.key := sameKey
        rw [same] at missing
        exact missing (hasTable_of_resolves wellFormed held) held
      · refine iff_of_true (Or.inr ?_) (fun lost => held lost.1)
        obtain ⟨set, setMember, rfl⟩ := declares
        refine ⟨set, ?_, rfl⟩
        rw [diff, mem_setsToAdd]
        exact ⟨declared, member, rfl, setMember, fun _ => held⟩
  | chain name =>
      by_cases held : kernel.Resolves declared.key (.chain name)
      · refine (or_congr_right (exists_chainChanges_iff wellFormed held)).trans ?_
        rw [and_iff_right held, Available, imp_iff_not_or]
      · refine iff_of_true (Or.inr ?_) (fun lost => absurd lost.1 held)
        obtain ⟨chain, chainMember, rfl⟩ := declares
        refine ⟨chain, mem_append_left _ ?_, rfl⟩
        rw [diff, mem_chainsToAdd]
        exact ⟨declared, member, rfl, chainMember, fun _ => held⟩
  | flowtable name => simp [Available, Ruleset.Resolves]

/-- The batch of a diff is legal where it stands exactly when its order does no
harm. -/
theorem along_batch (selfContained : SelfContained config) :
    Along effect Ruleset.Legal kernel ((diff order hashOrder config kernel).batch order) ↔
      OrderHarmless order config kernel := by
  have legalWhere : ∀ operations : List BatchOp,
      (∀ operation ∈ operations, operation ∈ (diff order hashOrder config kernel).objectAdditions ++
          (diff order hashOrder config kernel).flowtableAdditions) →
        ∀ ruleset, HoldsTables config ruleset →
          Along effect Ruleset.Legal ruleset operations := by
    intro operations among ruleset holds
    refine along_of_invariant ?_ ?_ holds
    · intro state holds operation member
      refine @HoldsTables.effect order hashOrder _ kernel _ _ holds ?_
      have inAdditions := among operation member
      rw [batch_eq]
      simp only [mem_append] at inAdditions ⊢
      tauto
    · intro state holds operation member
      exact legal_of_holdsTables holds (among operation member)
  have creationsLegal : ∀ state : Ruleset, ∀ operation ∈
      (diff order hashOrder config kernel).tableCreations,
      state.Legal operation := by
    intro state operation member
    obtain ⟨table, _, rfl⟩ := mem_map.mp member
    trivial
  have objectsLegal := legalWhere (diff order hashOrder config kernel).objectAdditions
    (fun operation => mem_append_left _) _
    (@holdsTables_afterCreations order hashOrder config kernel)
  have holdsTables : HoldsTables config (((diff order hashOrder config kernel).deletions ++
        (diff order hashOrder config kernel).tableCreations ++
        (diff order hashOrder config kernel).objectAdditions ++
        (diff order hashOrder config kernel).ruleAdditions order).foldl effect kernel) := by
    rw [List.append_assoc _ _ (ruleAdditions order _), foldl_append]
    refine foldl_invariant ?_ (holdsTables_afterCreations)
    intro state holds operation member
    refine @HoldsTables.effect order hashOrder _ kernel _ _ holds ?_
    rw [batch_eq]
    simp only [mem_append] at member ⊢
    tauto
  have flowtablesLegal := legalWhere (diff order hashOrder config kernel).flowtableAdditions
    (fun operation => mem_append_right _) _ holdsTables
  rw [batch_eq, along_append, along_append, along_append, along_append, along_deletions
    wellFormed, along_ruleAdditions wellFormed]
  have available : ∀ declared ∈ config.tables, ∀ rule ∈ declared.rules,
      ∀ reference ∈ .chain rule.body.chain :: rule.body.references,
        ((((diff order hashOrder config kernel).deletions ++
          (diff order hashOrder config kernel).tableCreations ++
          (diff order hashOrder config kernel).objectAdditions).foldl
            effect kernel).Resolves (rule.body.family, rule.body.table) reference ↔
          Available config kernel declared.key reference) := by
    intro declared declaredMember rule ruleMember reference isReference
    obtain ⟨inTable, inChain, refers⟩ := selfContained declared declaredMember rule ruleMember
    rw [inTable]
    refine resolves_beforeRules wellFormed declaredMember ?_
    rcases mem_cons.mp isReference with rfl | isReference
    · exact inChain
    · exact refers reference isReference
  constructor
  · rintro ⟨⟨⟨⟨deletions, _⟩, _⟩, written⟩, _⟩
    refine ⟨deletions, ?_⟩
    intro declared declaredMember rule ruleMember notInForce reference isReference
    rw [← available declared declaredMember rule ruleMember reference isReference]
    exact written declared declaredMember rule ruleMember notInForce reference isReference
  · intro harmless
    refine ⟨⟨⟨⟨harmless.toDeletionsHarmless,
      along_of_always creationsLegal _⟩, objectsLegal⟩, ?_⟩, flowtablesLegal⟩
    · intro declared declaredMember rule ruleMember notInForce reference isReference
      rw [available declared declaredMember rule ruleMember reference isReference]
      exact harmless.written declared declaredMember rule ruleMember notInForce
        reference isReference

end

variable (order hashOrder config kernel)

/-- What is committed when a diff is applied is legal operation by operation
exactly when the order of the batch does no harm. -/
theorem apply_legal_iff (wellFormed : kernel.WellFormed) (selfContained : SelfContained config)
    {operations : List BatchOp}
    (applied : (diff order hashOrder config kernel).apply order = .ok operations) :
    Along effect Ruleset.Legal kernel operations ↔ OrderHarmless order config kernel := by
  obtain ⟨_, rfl⟩ := ((diff order hashOrder config kernel).apply_eq_ok order operations).mp applied
  exact along_batch wellFormed selfContained

variable {order hashOrder config kernel}

/-- For tables that are declared once, the order of the batch does no harm
exactly when the rules that stay refer to declared objects only, and the rules
that are written offload to flowtables that the kernel holds. -/
theorem orderHarmless_iff_of_once (once : config.DeclaredOnce)
    (selfContained : SelfContained config) (resolved : Resolved kernel)
    (managed : Managed config kernel) :
    OrderHarmless order config kernel ↔
      (∀ rule ∈ kernel.rules, Stays config rule →
        ∀ declared ∈ config.tables, declared.key = rule.owner →
          ∀ reference ∈ rule.references, DeclaresObject declared reference) ∧
      ∀ declared ∈ config.tables, ∀ rule ∈ declared.rules, ¬ InForce order kernel declared rule →
          ∀ name, .flowtable name ∈ rule.body.references →
            kernel.HasFlowtable declared.key name := by
  have notLost : ∀ declared ∈ config.tables, ∀ reference, DeclaresObject declared reference →
        ¬ Lost config kernel declared.key reference := by
    rintro declared member reference declares ⟨_, other, otherMember, sameKey, undeclared⟩
    rw [once.eq_of_key otherMember member sameKey] at undeclared
    exact undeclared declares
  have chainKept : ∀ rule ∈ kernel.rules, ¬ Lost config kernel rule.owner (.chain rule.chain) := by
    intro rule member
    obtain ⟨_, declared, declaredMember, sameKey, declares⟩ := managed rule member
    rw [← sameKey]
    exact notLost declared declaredMember _ declares
  constructor
  · intro harmless
    refine ⟨?_, ?_⟩
    · intro rule member stays declared declaredMember sameKey reference isReference
      by_contra undeclared
      have lost : Lost config kernel rule.owner reference :=
        ⟨resolved rule member reference isReference, declared, declaredMember, sameKey, undeclared⟩
      cases reference with
      | set name => exact harmless.sets rule member stays name isReference lost
      | chain name =>
          rw [← mem_lostChains] at lost
          obtain ⟨before, after, isSplit⟩ := append_of_mem lost
          have chainLost := harmless.chains rule member stays name isReference before after isSplit
          refine chainKept rule member ?_
          rw [← mem_lostChains, isSplit]
          exact mem_append_left _ chainLost
      | flowtable name =>
          exact chainKept rule member (harmless.flowtables rule member stays name isReference lost)
    · intro declared member rule ruleMember notInForce name isReference
      exact (harmless.written declared member rule ruleMember notInForce _
        (mem_cons_of_mem _ isReference)).1
  · rintro ⟨stay, offload⟩
    have kept : ∀ rule ∈ kernel.rules, Stays config rule → ∀ reference ∈ rule.references,
          ¬ Lost config kernel rule.owner reference := by
      rintro rule member stays reference isReference ⟨_, declared,
        declaredMember, sameKey, undeclared⟩
      exact undeclared (stay rule member stays declared declaredMember sameKey
        reference isReference)
    refine ⟨⟨?_, ?_, ?_⟩, ?_⟩
    · intro rule member stays name isReference
      exact kept rule member stays _ isReference
    · intro rule member stays name isReference before after isSplit
      refine absurd ?_ (kept rule member stays _ isReference)
      rw [← mem_lostChains, isSplit]
      exact mem_append_right _ (mem_cons_self ..)
    · intro rule member stays name isReference lost
      exact absurd lost (kept rule member stays _ isReference)
    · intro declared member rule ruleMember notInForce reference isReference
      obtain ⟨_, inChain, refers⟩ := selfContained declared member rule ruleMember
      have declares : DeclaresObject declared reference := by
        rcases mem_cons.mp isReference with rfl | isReference
        · exact inChain
        · exact refers reference isReference
      have available := notLost declared member reference declares
      cases reference with
      | set name => exact available
      | chain name => exact fun lost => absurd lost available
      | flowtable name =>
          refine ⟨?_, available⟩
          rcases mem_cons.mp isReference with isChain | isReference
          · cases isChain
          · exact offload declared member rule ruleMember notInForce name isReference

end Order

/-- A table with a flowtable and a rule that offloads to it. -/
def offloading : NftablesConfig :=
  NftablesConfig.new.table "filter" .inet fun declared =>
    ((declared.flowtable (.new "ft")).chain (.new "forward")).ruleKeyed
      "forward" "offload" fun rule => { rule with exprs := [.flowOffload "ft"] }

def flowtableKernel : Ruleset where
  tables := [{ name := "filter", family := .inet, flags := 0 }]
  chains := [NewChain.create (chainMessage "filter" .inet (.new "forward"))]
  rules := []
  sets := []
  flowtables := [{ Flowtable.new .inet "filter" "ft" with devs := ["eth0"] }]
  nextHandle := 1

theorem flowtableKernel_wellFormed : flowtableKernel.WellFormed := by decide

theorem offloading_selfContained : SelfContained offloading := by
  decide

/-- With the flowtable in the kernel, the rule is legal when it is added. -/
theorem apply_legal_iff_held : ∃ operations,
      (diff .little .insertion offloading flowtableKernel).apply .little = .ok operations ∧
        Along effect Ruleset.Legal flowtableKernel operations := by
  have applied : (diff .little .insertion offloading flowtableKernel).apply .little =
        .ok ((diff .little .insertion offloading flowtableKernel).batch .little) :=
    (apply_eq_ok .little _ _).mpr ⟨by decide, rfl⟩
  refine ⟨_, applied, (apply_legal_iff .little .insertion offloading flowtableKernel
    flowtableKernel_wellFormed offloading_selfContained applied).mpr ?_⟩
  rw [@orderHarmless_iff_of_once .little offloading flowtableKernel (by decide)
    offloading_selfContained (fun _ member => absurd member not_mem_nil)
    (fun _ member => absurd member not_mem_nil)]
  refine ⟨fun _ member => absurd member not_mem_nil, ?_⟩
  intro declared member rule ruleMember _ name isReference
  cases mem_singleton.mp member
  cases mem_singleton.mp ruleMember
  cases mem_singleton.mp isReference
  decide

/-- A kernel without tables. -/
def bareKernel : Ruleset where
  tables := []
  chains := []
  rules := []
  sets := []
  flowtables := []
  nextHandle := 1

theorem bareKernel_wellFormed : bareKernel.WellFormed := by decide

/-- On a kernel without the table, the rule is added before its flowtable. -/
theorem offloading_illegal :
    bareKernel.WellFormed ∧ SelfContained offloading ∧ Resolved bareKernel ∧
      Managed offloading bareKernel ∧ ∃ operations,
          (diff .little .insertion offloading bareKernel).apply .little = .ok operations ∧
            ¬ Along effect Ruleset.Legal bareKernel operations := by
  have applied : (diff .little .insertion offloading bareKernel).apply .little =
        .ok ((diff .little .insertion offloading bareKernel).batch .little) :=
    (apply_eq_ok .little _ _).mpr ⟨by decide, rfl⟩
  refine ⟨bareKernel_wellFormed, offloading_selfContained, ?_, ?_, _, applied, ?_⟩
  · exact fun _ member => absurd member not_mem_nil
  · exact fun _ member => absurd member not_mem_nil
  rw [@along_batch .little .insertion offloading bareKernel
    bareKernel_wellFormed offloading_selfContained]
  intro harmless
  have held := harmless.written _ (mem_singleton_self _) _ (mem_singleton_self _) (by
      rintro ⟨_, _, _, found, _⟩
      cases (kernelByKey_eq_some found).1)
    (.flowtable "ft") (mem_cons_of_mem _ (mem_singleton_self _))
  exact absurd held.1 (by decide)

end Nlink.Nftables
