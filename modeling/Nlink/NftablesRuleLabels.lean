import Nlink.NftablesRuleRun

namespace Nlink.Nftables

open Foundation Netlink List

/-!
# Labels before and after a batch

A declared rule is found again under its label.  Which labels there are after a
batch is read off the survivors, the replacements and the additions, and so is
which of them are labels of rules with the declared body.
-/

theorem eq_of_countP_le_one {property : α → Bool} {items : List α}
    (once : items.countP property ≤ 1) {first second : α} (firstMember : first ∈ items)
    (secondMember : second ∈ items) (firstHas : property first = true)
    (secondHas : property second = true) : first = second := by
  rw [countP_eq_length_filter] at once
  have firstKept := mem_filter.mpr ⟨firstMember, firstHas⟩
  have secondKept := mem_filter.mpr ⟨secondMember, secondHas⟩
  cases kept : items.filter property with
  | nil =>
      rw [kept] at firstKept
      cases firstKept
  | cons only rest =>
      rw [kept, length_cons] at once
      have noRest : rest = [] := length_eq_zero_iff.mp (by omega)
      rw [kept, noRest, mem_singleton] at firstKept secondKept
      rw [firstKept, secondKept]

theorem flatMap_eq_of_only {items : List α} (distinct : items.Nodup) {only : α}
    (member : only ∈ items) {contribution : α → List β}
    (others : ∀ item ∈ items, item ≠ only → contribution item = []) :
    items.flatMap contribution = contribution only := by
  obtain ⟨before, after, rfl⟩ := mem_iff_append.mp member
  rw [nodup_middle, nodup_cons, mem_append] at distinct
  have noBefore : before.flatMap contribution = [] := by
    refine flatMap_eq_nil_iff.mpr fun item itemMember => ?_
    refine others item (by simp [itemMember]) ?_
    rintro rfl
    exact distinct.1 (Or.inl itemMember)
  have noAfter : after.flatMap contribution = [] := by
    refine flatMap_eq_nil_iff.mpr fun item itemMember => ?_
    refine others item (by simp [itemMember]) ?_
    rintro rfl
    exact distinct.1 (Or.inr itemMember)
  rw [flatMap_append, flatMap_cons, noBefore, noAfter, List.nil_append, List.append_nil]

namespace NftablesConfig

/-- The declared rules, declaration by declaration. -/
def rules (config : NftablesConfig) : List DeclaredRule :=
  config.tables.flatMap DeclaredTable.rules

def rulesIn (config : NftablesConfig) (owner : TableKey) (chain : String) : List DeclaredRule :=
  config.rules.filter fun rule => rule.owner = owner ∧ rule.chain = chain

/-- No key is declared twice in a chain. -/
def DistinctKeys (config : NftablesConfig) : Prop :=
  (config.rules.filterMap DeclaredRule.label).Nodup

instance (config : NftablesConfig) : Decidable config.DistinctKeys :=
  inferInstanceAs (Decidable (List.Nodup _))

/-- Whoever declares something in the chain of a label declares its key
there. -/
def Keeps (config : NftablesConfig) (label : Label) : Prop :=
  ∀ declared ∈ config.tables, declared.key = label.owner → Touches declared label.chain →
      DeclaresKey declared label.chain label.key

variable {config : NftablesConfig}

theorem mem_rules {rule : DeclaredRule} : rule ∈ config.rules ↔
      ∃ declared ∈ config.tables, rule ∈ declared.rules :=
  mem_flatMap

theorem DistinctKeys.countP_label (distinct : config.DistinctKeys)
    (label : Label) : config.rules.countP (fun rule => rule.label = some label) ≤ 1 := by
  have once := nodup_iff_count_le_one.mp distinct label
  rw [List.count, countP_filterMap] at once
  refine le_trans (countP_mono_left fun rule _ isLabel => ?_) once
  rw [of_decide_eq_true isLabel]
  simp

/-- A label names one declared rule. -/
theorem DistinctKeys.eq_of_label (distinct : config.DistinctKeys)
    {first second : DeclaredRule} {label : Label} (firstMember : first ∈ config.rules)
    (secondMember : second ∈ config.rules) (firstLabel : first.label = some label)
    (secondLabel : second.label = some label) : first = second :=
  eq_of_countP_le_one (distinct.countP_label label) firstMember secondMember
    (by simp [firstLabel]) (by simp [secondLabel])

end NftablesConfig

/-- How many rules a label is the label of. -/
def Ruleset.labelled (ruleset : Ruleset) (label : Label) : Nat :=
  ruleset.rules.countP fun rule => rule.label = some label

variable {rule : DeclaredRule}

theorem owner_of_mem {declared : DeclaredTable}
    (member : rule ∈ declared.rules) : rule.owner = declared.key :=
  Prod.ext (declared.rulesOwned rule member).2 (declared.rulesOwned rule member).1

variable {label : Label}

theorem RuleInfo.label_eq_some {rule : RuleInfo} : rule.label = some label ↔
      rule.owner = label.owner ∧ rule.chain = label.chain ∧ rule.comment = some label.key := by
  obtain ⟨owner, chain, key⟩ := label
  cases isKey : rule.comment <;>
    simp [RuleInfo.label, isKey]

theorem DeclaredRule.label_eq_some : rule.label = some label ↔
      rule.owner = label.owner ∧ rule.chain = label.chain ∧ rule.handleKey = some label.key := by
  obtain ⟨owner, chain, key⟩ := label
  cases isKey : rule.handleKey <;>
    simp [DeclaredRule.label, isKey]

theorem DeclaredRule.sentLabel_eq_some :
    rule.sentLabel = some label ↔ rule.sentOwner = label.owner ∧ rule.body.chain = label.chain ∧
        rule.readBack = some label.key := by
  obtain ⟨owner, chain, key⟩ := label
  cases isKey : rule.readBack <;>
    simp [DeclaredRule.sentLabel, isKey]

theorem stays_iff {config : NftablesConfig} {rule : RuleInfo} : Stays config rule ↔
      ∀ label, rule.label = some label → config.Keeps label := by
  constructor
  · intro stays label isLabel declared member sameKey touches
    obtain ⟨isOwner, isChain, isKey⟩ := RuleInfo.label_eq_some.mp isLabel
    rw [← isChain] at touches ⊢
    exact stays declared member (sameKey.trans isOwner.symm) touches _ isKey
  · intro kept declared member sameKey touches key isKey
    exact kept ⟨rule.owner, rule.chain, key⟩
      (RuleInfo.label_eq_some.mpr ⟨rfl, rfl, isKey⟩) declared member sameKey
      touches

section Labels

variable {order : ByteOrder}
variable {hashOrder : HashOrder}
variable {config : NftablesConfig}
variable {kernel : Ruleset}

variable {current : RuleInfo} {rule : DeclaredRule}

theorem label_of_found {declared : DeclaredTable}
    (member : rule ∈ declared.rules) {key : String} (isKey : rule.handleKey = some key)
    (found : kernelByKey (kernel.rulesIn declared.key rule.chain) key = some current) :
    current ∈ kernel.rules ∧ current.label = rule.label := by
  obtain ⟨isIn, isFound⟩ := kernelByKey_eq_some found
  obtain ⟨held, isOwner, isChain⟩ := Ruleset.mem_rulesIn.mp isIn
  rw [← owner_of_mem member] at isOwner
  rw [RuleInfo.label, DeclaredRule.label, isFound, isKey, isOwner, isChain]
  exact ⟨held, rfl⟩

/-- A labelled rule is added when the kernel has none of its label. -/
theorem isAdd_iff {declared : DeclaredTable} {rule : DeclaredRule} (member : rule ∈ declared.rules)
    {label : Label} (isLabel : rule.label = some label) :
    ruleAction order (kernel.rulesIn declared.key rule.chain) rule = .add ↔
      ∀ current ∈ kernel.rules, current.label ≠ some label := by
  obtain ⟨isOwner, isChain, isKey⟩ := DeclaredRule.label_eq_some.mp isLabel
  rw [ruleAction_eq_add]
  simp only [isKey, Option.some.injEq, forall_eq', Ruleset.mem_rulesIn,
    ← owner_of_mem member, isOwner, isChain, ne_eq, RuleInfo.label_eq_some]
  constructor
  · rintro absent current held ⟨sameOwner, sameChain, sameKey⟩
    exact absent current ⟨held, sameOwner, sameChain⟩ sameKey
  · rintro absent current ⟨held, sameOwner, sameChain⟩ sameKey
    exact absent current held ⟨sameOwner, sameChain, sameKey⟩

variable {label : Label}

theorem action_cases {declared : DeclaredTable}
    (member : rule ∈ declared.rules) (isLabel : rule.label = some label) :
    (∀ current ∈ kernel.rules, current.label ≠ some label) ∨
      ∃ current ∈ kernel.rules, current.label = some label ∧
        kernelByKey (kernel.rulesIn declared.key rule.chain) label.key = some current := by
  obtain ⟨_, _, isKey⟩ := DeclaredRule.label_eq_some.mp isLabel
  cases found :
      kernelByKey (kernel.rulesIn declared.key rule.chain) label.key with
  | none =>
      left
      intro current held sameLabel
      obtain ⟨isOwner, isChain, _⟩ := DeclaredRule.label_eq_some.mp isLabel
      obtain ⟨sameOwner, sameChain, sameKey⟩ := RuleInfo.label_eq_some.mp sameLabel
      refine kernelByKey_eq_none.mp found current (Ruleset.mem_rulesIn.mpr ⟨held, ?_, ?_⟩) sameKey
      · rw [← owner_of_mem member, isOwner, sameOwner]
      · rw [isChain, sameChain]
  | some current =>
      obtain ⟨held, same⟩ := label_of_found member isKey found
      exact Or.inr ⟨current, held, same.trans isLabel, rfl⟩

theorem mem_rulesToAdd_iff (wellFormed : kernel.WellFormed) :
    rule ∈ (diff order hashOrder config kernel).rulesToAdd ↔
      ∃ declared ∈ config.tables, rule ∈ declared.rules ∧ ∀ label, rule.label = some label →
          ∀ current ∈ kernel.rules, current.label ≠ some label := by
  rw [diff, mem_rulesToAdd]
  refine exists_congr fun declared => and_congr_right fun _ => and_congr_right fun member => ?_
  cases isLabel : rule.label with
  | none =>
      have noKey : rule.handleKey = none := by simpa [DeclaredRule.label] using isLabel
      simp [ruleAction, noKey]
  | some label =>
      rw [isAdd_iff member isLabel]
      simp only [Option.some.injEq, forall_eq']
      constructor
      · intro absent current held sameLabel
        obtain ⟨isOwner, _, _⟩ := DeclaredRule.label_eq_some.mp isLabel
        obtain ⟨sameOwner, _, _⟩ := RuleInfo.label_eq_some.mp sameLabel
        refine absent ?_ current held sameLabel
        rw [← owner_of_mem member, isOwner, ← sameOwner]
        have chainHeld : kernel.Resolves current.owner (.chain current.chain) :=
          wellFormed.rulesOwned current held
        exact hasTable_of_resolves wellFormed chainHeld
      · exact fun absent _ => absent

variable {entry : String × Family × String × Nat × DeclaredRule}

theorem replaced_label
    (member : entry ∈ (diff order hashOrder config kernel).rulesToReplace) :
    ∃ declared ∈ config.tables, entry.2.2.2.2 ∈ declared.rules ∧
      ¬ InForce order kernel declared entry.2.2.2.2 ∧ ∃ current ∈ kernel.rules, ∃ label,
          entry.2.2.2.2.label = some label ∧ current.label = some label ∧
            current.handle = entry.2.2.2.1 := by
  obtain ⟨declared, declaredMember, ruleMember, key, current, isKey, found,
    differs, isHandle⟩ := replaced_held member
  obtain ⟨held, sameLabel⟩ := label_of_found ruleMember isKey found
  have isLabel : entry.2.2.2.2.label = some ⟨entry.2.2.2.2.owner, entry.2.2.2.2.chain, key⟩ := by
    rw [DeclaredRule.label, isKey]
    rfl
  refine ⟨declared, declaredMember, ruleMember, ?_, current, held, _, isLabel,
    sameLabel.trans isLabel, isHandle⟩
  rintro ⟨otherKey, other, isOther, otherFound, same⟩
  rw [isKey, Option.some.injEq] at isOther
  rw [← isOther, found, Option.some.injEq] at otherFound
  rw [← otherFound, differs] at same
  cases same

/-- The additions of one chain, in declared order: its rules that the kernel
lacks. -/
theorem additions_in (wellFormed : kernel.WellFormed) (owner : TableKey) (chain : String) :
    ((diff order hashOrder config kernel).rulesToAdd.filter
        fun rule => rule.owner = owner ∧ rule.chain = chain) =
      (config.rulesIn owner chain).filter
        fun rule => ruleAction order (kernel.rulesIn owner chain) rule =
          .add := by
  have isList : IsListOf .rule NftablesDiff.rulesToAdd := ⟨⟨rfl, fun _ _ => rfl⟩, fun _ => rfl⟩
  rw [diff, ruleList_diff isList, NftablesConfig.rulesIn, NftablesConfig.rules,
    filter_flatMap, filter_flatMap, filter_flatMap]
  refine flatMap_congr fun declared _ => ?_
  by_cases sameKey : declared.key = owner
  · subst sameKey
    have inChain : (declared.rules.filter fun rule =>
        rule.owner = declared.key ∧ rule.chain = chain) =
        declared.rulesIn chain := by
      refine filter_congr fun rule member => ?_
      simp [owner_of_mem member]
    rw [inChain]
    by_cases held : kernel.HasTable declared.key
    · rw [if_pos held, diffRules, isList.ofAppend, isList.concat,
        isList.concat, flatMap_map, flatMap_map, filter_append]
      have noOthers : (((hashOrder.arrange
          ((kernel.listRules declared.key).map RuleInfo.chain).dedup).filter fun other => other ∉
              (declared.rules.map DeclaredRule.chain).dedup).flatMap
          fun other => (diffOtherChain declared
            (kernel.listRules declared.key) other).rulesToAdd) = [] :=
        flatMap_eq_nil_iff.mpr fun _ _ => rfl
      rw [noOthers, filter_nil, List.append_nil, filter_flatMap]
      have contribution : ∀ other,
          ((diffDeclaredChain order declared (kernel.listRules declared.key)
              other).rulesToAdd.filter fun rule => rule.owner = declared.key ∧ rule.chain = chain) =
            if other = chain then
              (declared.rulesIn chain).filter fun rule =>
                ruleAction order (kernel.rulesIn declared.key chain) rule = .add
            else
              [] := by
        intro other
        simp only [diffDeclaredChain, Ruleset.listRules_filter_chain]
        by_cases isChain : other = chain
        · subst isChain
          rw [if_pos rfl, filter_eq_self]
          intro rule member
          have isIn := (mem_filter.mp member).1
          rw [DeclaredTable.rulesIn, mem_filter, decide_eq_true_eq] at isIn
          simp [owner_of_mem isIn.1, isIn.2]
        · rw [if_neg isChain, filter_eq_nil_iff]
          intro rule member
          have isIn := (mem_filter.mp member).1
          rw [DeclaredTable.rulesIn, mem_filter, decide_eq_true_eq] at isIn
          simp [isIn.2, isChain]
      simp only [contribution]
      have nodup : (hashOrder.arrange (declared.rules.map DeclaredRule.chain).dedup).Nodup :=
        (hashOrder.permutes _).nodup_iff.mpr (nodup_dedup _)
      by_cases declares : ∃ rule ∈ declared.rules, rule.chain = chain
      · have isThere : chain ∈ hashOrder.arrange (declared.rules.map DeclaredRule.chain).dedup := by
          rw [(hashOrder.permutes _).mem_iff, mem_dedup, mem_map]
          exact declares
        rw [flatMap_eq_of_only nodup isThere fun other _ isOther => if_neg isOther, if_pos rfl]
      · have noRules : declared.rulesIn chain = [] := by
          rw [DeclaredTable.rulesIn, filter_eq_nil_iff]
          intro rule member isIn
          exact declares ⟨rule, member, of_decide_eq_true isIn⟩
        rw [noRules]
        simp
    · rw [if_neg held, rulesIn_of_not_hasTable wellFormed held]
      have allAdded : ∀ rule : DeclaredRule, ruleAction order [] rule = .add := by
        intro rule
        rw [ruleAction_eq_add]
        simp
      simp only [contents, allAdded, decide_true, filter_true]
      exact inChain
  · have noneIn : (declared.rules.filter fun rule =>
        rule.owner = owner ∧ rule.chain = chain) = [] := by
      rw [filter_eq_nil_iff]
      intro rule member isIn
      rw [decide_eq_true_eq, owner_of_mem member] at isIn
      exact sameKey isIn.1
    rw [noneIn, filter_nil, filter_eq_nil_iff]
    intro rule member isIn
    have ruleMember : rule ∈ declared.rules := by
      split at member
      · rw [mem_diffRules_chain isList.toIsList] at member
        rcases member with ⟨other, _, isAdded⟩ | ⟨other, _, _, isAdded⟩
        · have inOther := (mem_filter.mp isAdded).1
          exact (mem_filter.mp inOther).1
        · cases isAdded
      · exact member
    rw [decide_eq_true_eq, owner_of_mem ruleMember] at isIn
    exact sameKey isIn.1

/-- A label that the kernel lacks is added once, others are not. -/
theorem countP_additions (wellFormed : kernel.WellFormed) (distinct : config.DistinctKeys)
    (member : rule ∈ config.rules)
    (isLabel : rule.label = some label) :
    (diff order hashOrder config kernel).rulesToAdd.countP (fun rule => rule.label = some label) =
      if kernel.labelled label = 0 then 1 else 0 := by
  have isAdd : ∀ other ∈ config.rules, other.label = some label →
      (other ∈ (diff order hashOrder config kernel).rulesToAdd ↔ kernel.labelled label = 0) := by
    intro other otherMember otherLabel
    rw [mem_rulesToAdd_iff wellFormed, Ruleset.labelled, countP_eq_zero]
    obtain ⟨declared, declaredMember, inDeclared⟩ := NftablesConfig.mem_rules.mp otherMember
    constructor
    · rintro ⟨_, _, _, absent⟩ current held
      simpa using absent label otherLabel current held
    · intro absent
      refine ⟨declared, declaredMember, inDeclared, ?_⟩
      intro otherKey isOther current held
      rw [otherLabel] at isOther
      rw [← isOther]
      simpa using absent current held
  by_cases lacks : kernel.labelled label = 0
  · rw [if_pos lacks]
    have inChain : (diff order hashOrder config kernel).rulesToAdd.countP
          (fun rule => rule.label = some label) =
        ((diff order hashOrder config kernel).rulesToAdd.filter fun rule =>
            rule.owner = label.owner ∧ rule.chain = label.chain).countP
          (fun rule => rule.label = some label) := by
      rw [countP_filter]
      refine countP_congr fun other _ => ?_
      simp only [decide_eq_true_eq, Bool.and_eq_true]
      refine ⟨fun isOther => ⟨isOther, ?_⟩, And.left⟩
      obtain ⟨isOwner, isChain, _⟩ := DeclaredRule.label_eq_some.mp isOther
      exact ⟨isOwner, isChain⟩
    have allAdded : ((config.rulesIn label.owner label.chain).filter fun rule =>
          ruleAction order (kernel.rulesIn label.owner label.chain) rule =
            .add).countP (fun rule => rule.label = some label) =
        config.rules.countP fun rule => rule.label = some label := by
      rw [NftablesConfig.rulesIn, countP_filter, countP_filter]
      refine countP_congr fun other otherMember => ?_
      simp only [decide_eq_true_eq, Bool.and_eq_true, and_assoc]
      refine ⟨And.left, fun isOther => ?_⟩
      obtain ⟨isOwner, isChain, _⟩ := DeclaredRule.label_eq_some.mp isOther
      obtain ⟨declared, _, inDeclared⟩ := NftablesConfig.mem_rules.mp otherMember
      have action := @isAdd_iff order kernel _ _ inDeclared _ isOther
      rw [← owner_of_mem inDeclared, isOwner, isChain] at action
      refine ⟨isOther, action.mpr fun current held => ?_, isOwner, isChain⟩
      have absent := countP_eq_zero.mp lacks current held
      simpa using absent
    rw [inChain, additions_in wellFormed, allAdded]
    refine le_antisymm (distinct.countP_label label) ?_
    exact countP_pos_iff.mpr ⟨rule, member, by simpa using isLabel⟩
  · rw [if_neg lacks, countP_eq_zero]
    intro other isAdded otherLabel
    have otherMember : other ∈ config.rules := by
      obtain ⟨declared, declaredMember, inDeclared, _⟩ := (mem_rulesToAdd_iff wellFormed).mp isAdded
      exact NftablesConfig.mem_rules.mpr ⟨declared, declaredMember, inDeclared⟩
    exact lacks ((isAdd other otherMember (of_decide_eq_true otherLabel)).mp isAdded)

/-! ### Replacements and labels -/

theorem label_of_hit (wellFormed : kernel.WellFormed)
    (member : entry ∈ (diff order hashOrder config kernel).rulesToReplace)
    (sameOwner : entry.2.2.2.2.sentOwner = entry.2.2.2.2.owner)
    (held : current ∈ kernel.rules) (isHit : hits entry.2.2.2.1 entry.2.2.2.2 current = true) :
    current.label = entry.2.2.2.2.label ∧ entry.2.2.2.2.body.chain = entry.2.2.2.2.chain := by
  obtain ⟨_, _, _, _, found, foundHeld, label, isLabel, foundLabel, isHandle⟩ :=
    replaced_label member
  obtain ⟨isOwner, isChain, _⟩ := DeclaredRule.label_eq_some.mp isLabel
  obtain ⟨foundOwner, foundChain, _⟩ := RuleInfo.label_eq_some.mp foundLabel
  rw [hits, decide_eq_true_eq, RuleInfo.isIn, decide_eq_true_eq] at isHit
  obtain ⟨⟨hitOwner, hitChain⟩, hitHandle⟩ := isHit
  have same : current = found := by
    refine wellFormed.eq_of_handle held foundHeld ?_ (hitHandle.trans isHandle.symm)
    rw [hitOwner, sameOwner, isOwner, foundOwner]
  refine ⟨?_, ?_⟩
  · rw [same, foundLabel, isLabel]
  · rw [← hitChain, same, foundChain, isChain]

theorem rewrittenEntry_cases (replacements : List (String × Family × String × Nat × DeclaredRule))
    (current : RuleInfo) :
    ((∀ entry ∈ replacements, hits entry.2.2.2.1 entry.2.2.2.2 current = false) ∧
      rewrittenEntry order replacements current = current.entry) ∨
    ∃ entry ∈ replacements, hits entry.2.2.2.1 entry.2.2.2.2 current = true ∧
        rewrittenEntry order replacements current = entry.2.2.2.2.sentEntry order := by
  cases found : replacements.find? fun entry =>
      hits entry.2.2.2.1 entry.2.2.2.2 current with
  | none =>
      left
      have noHit : ∀ entry ∈ replacements, hits entry.2.2.2.1 entry.2.2.2.2 current = false := by
        intro entry member
        simpa using find?_eq_none.mp found entry member
      exact ⟨noHit, rewrittenEntry_of_not_hit order noHit⟩
  | some entry =>
      right
      have isHit := (find?_eq_some_iff_append.mp found).1
      refine ⟨entry, mem_of_find?_eq_some found, isHit, ?_⟩
      rw [rewrittenEntry, found]

variable (order config kernel)

/-- A declared rule with a key that is not in force is sent under its label. -/
def SentAsDeclared : Prop :=
  ∀ declared ∈ config.tables, ∀ rule ∈ declared.rules, rule.label ≠ none →
    ¬ InForce order kernel declared rule → rule.sentLabel = rule.label

variable {order config kernel}

theorem SentAsDeclared.of_replaced (sent : SentAsDeclared order config kernel)
    (member : entry ∈ (diff order hashOrder config kernel).rulesToReplace) :
    entry.2.2.2.2.sentLabel = entry.2.2.2.2.label ∧
      entry.2.2.2.2.sentOwner = entry.2.2.2.2.owner := by
  obtain ⟨declared, declaredMember, ruleMember, notInForce, _, _, label,
    isLabel, _⟩ := replaced_label member
  have sameLabel := sent declared declaredMember _ ruleMember
    (by rw [isLabel]; exact Option.some_ne_none _) notInForce
  refine ⟨sameLabel, ?_⟩
  obtain ⟨isOwner, _, _⟩ := DeclaredRule.label_eq_some.mp isLabel
  obtain ⟨sentOwner, _, _⟩ := DeclaredRule.sentLabel_eq_some.mp (sameLabel.trans isLabel)
  rw [sentOwner, isOwner]

theorem SentAsDeclared.rewritten_label (sent : SentAsDeclared order config kernel)
    (wellFormed : kernel.WellFormed) (held : current ∈ kernel.rules) :
    (rewrittenEntry order (diff order hashOrder config kernel).rulesToReplace current).label =
      current.label := by
  rcases rewrittenEntry_cases (diff order hashOrder config kernel).rulesToReplace current with
    ⟨_, same⟩ | ⟨entry, member, isHit, isSent⟩
  · rw [same]
    rfl
  · obtain ⟨sentLabel, sameOwner⟩ := sent.of_replaced member
    rw [isSent, DeclaredRule.sentEntry, sentLabel,
      (label_of_hit wellFormed member sameOwner held isHit).1]

theorem countP_survivors
    (survive : ∀ current ∈ kernel.rules, current.label = some label →
      Survives config kernel current) (same : ∀ current ∈ survivors config kernel,
      ((rewrittenEntry order (diff order hashOrder config kernel).rulesToReplace current).label =
        some label ↔ current.label = some label)) :
    ((survivors config kernel).map
        (rewrittenEntry order (diff order hashOrder config kernel).rulesToReplace)).countP
        (fun entry => entry.label = some label) =
      kernel.labelled label := by
  rw [countP_map, Ruleset.labelled]
  have sameCount : (survivors config kernel).countP
        ((fun entry : RuleEntry => decide (entry.label = some label)) ∘ rewrittenEntry order
            (diff order hashOrder config kernel).rulesToReplace) =
      (survivors config kernel).countP fun current => current.label = some label := by
    refine countP_congr fun current member => ?_
    simpa using same current member
  rw [sameCount, survivors, countP_filter]
  refine countP_congr fun current held => ?_
  simp only [decide_eq_true_eq, Bool.and_eq_true, and_iff_left_iff_imp]
  exact survive current held

theorem countP_sent
    (same : ∀ rule ∈ (diff order hashOrder config kernel).rulesToAdd,
      (rule.sentLabel = some label ↔ rule.label = some label)) :
    ((diff order hashOrder config kernel).rulesToAdd.map (DeclaredRule.sentEntry order)).countP
        (fun entry => entry.label = some label) =
      (diff order hashOrder config kernel).rulesToAdd.countP
        fun rule => rule.label = some label := by
  rw [countP_map]
  refine countP_congr fun rule member => ?_
  rw [decide_eq_true_iff, ← same rule member]
  exact decide_eq_true_iff

/-! ### Declared rules that are found again -/

theorem survives_iff_of_label {first second : RuleInfo}
    (firstLabel : first.label = some label) (secondLabel : second.label = some label) :
    Survives config kernel first ↔ Survives config kernel second := by
  obtain ⟨firstOwner, firstChain, _⟩ := RuleInfo.label_eq_some.mp firstLabel
  obtain ⟨secondOwner, secondChain, _⟩ := RuleInfo.label_eq_some.mp secondLabel
  rw [Survives, Survives, stays_iff, stays_iff, firstLabel, secondLabel,
    firstOwner, firstChain, secondOwner, secondChain]

/-- A rule that survives under a declared label has the declared body if it is
alone with the label and is sent as declared. -/
theorem body_rewrittenEntry (wellFormed : kernel.WellFormed) (distinct : config.DistinctKeys)
    (sent : SentAsDeclared order config kernel) (member : rule ∈ config.rules)
    (isLabel : rule.label = some label) (once : kernel.labelled label ≤ 1)
    (held : current ∈ kernel.rules) (sameLabel : current.label = some label) :
    normalizeTlv order (lowerToExpressionBytes order rule.body) = normalizeTlv order
        (rewrittenEntry order (diff order hashOrder config kernel).rulesToReplace
            current).expressionBytes := by
  obtain ⟨declared, declaredMember, ruleMember⟩ := NftablesConfig.mem_rules.mp member
  obtain ⟨_, _, isKey⟩ := DeclaredRule.label_eq_some.mp isLabel
  rcases rewrittenEntry_cases (diff order hashOrder config kernel).rulesToReplace current with
    ⟨noHit, same⟩ | ⟨entry, entryMember, isHit, isSent⟩
  · rcases action_cases ruleMember isLabel with absent | ⟨found, foundHeld, foundLabel, isFound⟩
    · exact absurd sameLabel (absent current held)
    · have isCurrent : found = current :=
        eq_of_countP_le_one once foundHeld held (by simpa using foundLabel)
          (by simpa using sameLabel)
      rw [isCurrent] at isFound
      by_contra differs
      rw [same] at differs
      have bodyDiffer : bodyDiffers order rule.body current = true := by
        simpa [bodyDiffers] using differs
      have isReplaced : (declared.name, declared.family, rule.chain, current.handle, rule) ∈
            (diff order hashOrder config kernel).rulesToReplace := by
        have tableHeld : kernel.HasTable declared.key := by
          obtain ⟨isIn, _⟩ := kernelByKey_eq_some isFound
          obtain ⟨_, isOwner, _⟩ := Ruleset.mem_rulesIn.mp isIn
          have chainHeld : kernel.Resolves current.owner (.chain current.chain) :=
            wellFormed.rulesOwned current held
          exact isOwner ▸ hasTable_of_resolves wellFormed chainHeld
        rw [diff, mem_rulesToReplace]
        exact ⟨declared, declaredMember, rfl, tableHeld, ruleMember, rfl,
          (ruleAction_eq_replace).mpr ⟨_, current, isKey, isFound, bodyDiffer, rfl⟩⟩
      -- the replacement is sent under the label, so it hits
      have missed := noHit _ isReplaced
      have isSent := (sent.of_replaced isReplaced).1.trans isLabel
      obtain ⟨sentOwner, sentChain, _⟩ := DeclaredRule.sentLabel_eq_some.mp isSent
      obtain ⟨isOwner, isChain, _⟩ := RuleInfo.label_eq_some.mp sameLabel
      simp [hits, RuleInfo.isIn, sentOwner, isOwner, isChain] at missed
      exact missed sentChain.symm
  · obtain ⟨_, sameOwner⟩ := sent.of_replaced entryMember
    have entryLabel := (label_of_hit wellFormed entryMember sameOwner held isHit).1
    obtain ⟨other, otherMember, inOther, _⟩ := replaced_label entryMember
    have same : entry.2.2.2.2 = rule :=
      distinct.eq_of_label (NftablesConfig.mem_rules.mpr ⟨other, otherMember, inOther⟩) member
        (entryLabel.symm.trans sameLabel) isLabel
    rw [isSent, same]
    rfl

theorem mem_rules_of_added (wellFormed : kernel.WellFormed)
    (isAdded : rule ∈ (diff order hashOrder config kernel).rulesToAdd) :
    rule ∈ config.rules ∧ ∀ label, rule.label = some label → kernel.labelled label = 0 := by
  obtain ⟨declared, declaredMember, ruleMember, absent⟩ :=
    (mem_rulesToAdd_iff wellFormed).mp isAdded
  refine ⟨NftablesConfig.mem_rules.mpr ⟨declared, declaredMember, ruleMember⟩, ?_⟩
  intro label isLabel
  rw [Ruleset.labelled, countP_eq_zero]
  intro current held
  simpa using absent label isLabel current held

theorem SentAsDeclared.of_added {order : ByteOrder} {config : NftablesConfig} {kernel : Ruleset}
    (sent : SentAsDeclared order config kernel) (wellFormed : kernel.WellFormed)
    (isAdded : rule ∈ (diff order hashOrder config kernel).rulesToAdd)
    (labelled : rule.label ≠ none) : rule.sentLabel = rule.label := by
  obtain ⟨declared, declaredMember, ruleMember, absent⟩ :=
    (mem_rulesToAdd_iff wellFormed).mp isAdded
  refine sent declared declaredMember rule ruleMember labelled ?_
  rintro ⟨key, current, isKey, found, _⟩
  obtain ⟨held, sameLabel⟩ := label_of_found ruleMember isKey found
  obtain ⟨label, isLabel⟩ := Option.ne_none_iff_exists'.mp labelled
  exact absent label isLabel current held (sameLabel.trans isLabel)

/-! ### Rules without detours -/

variable (config kernel)

/-- Bodies of keyed rules stay in their table, no rule is sent under the label
of another, and a key that cannot be read back labels one rule at most. -/
structure Ordinary : Prop where
  ownTable : ∀ rule ∈ config.rules, rule.label ≠ none → rule.sentOwner = rule.owner
  noImpostor : ∀ rule ∈ config.rules, ∀ label, rule.sentLabel = some label →
    (∃ other ∈ config.rules, other.label = some label) → rule.label = some label
  hiddenOnce : ∀ rule ∈ config.rules, ∀ label, rule.label = some label →
    rule.sentLabel = none → kernel.labelled label ≤ 1

variable {config kernel}

theorem Ordinary.label_of_hit {config : NftablesConfig} {kernel : Ruleset}
    (ordinary : Ordinary config kernel) (wellFormed : kernel.WellFormed)
    (member : entry ∈ (diff order hashOrder config kernel).rulesToReplace)
    (held : current ∈ kernel.rules) (isHit : hits entry.2.2.2.1 entry.2.2.2.2 current = true) :
    entry.2.2.2.2 ∈ config.rules ∧ current.label = entry.2.2.2.2.label ∧
      entry.2.2.2.2.sentOwner = entry.2.2.2.2.owner ∧
      entry.2.2.2.2.body.chain = entry.2.2.2.2.chain := by
  obtain ⟨declared, declaredMember, ruleMember, _, _, _, label, isLabel, _⟩ := replaced_label member
  have isRule : entry.2.2.2.2 ∈ config.rules :=
    NftablesConfig.mem_rules.mpr ⟨declared, declaredMember, ruleMember⟩
  have sameOwner := ordinary.ownTable _ isRule (by rw [isLabel]; exact Option.some_ne_none _)
  obtain ⟨sameLabel, sameChain⟩ := Nftables.label_of_hit wellFormed member sameOwner held isHit
  exact ⟨isRule, sameLabel, sameOwner, sameChain⟩

theorem Ordinary.label_of_rewritten {config : NftablesConfig} {kernel : Ruleset}
    (ordinary : Ordinary config kernel) (wellFormed : kernel.WellFormed)
    (member : rule ∈ config.rules) (isLabel : rule.label = some label)
    (held : current ∈ kernel.rules)
    (rewritten : (rewrittenEntry order
      (diff order hashOrder config kernel).rulesToReplace current).label = some label) :
    current.label = some label := by
  rcases rewrittenEntry_cases (diff order hashOrder config kernel).rulesToReplace current with
    ⟨_, same⟩ | ⟨entry, entryMember, isHit, isSent⟩
  · rw [same] at rewritten
    exact rewritten
  · obtain ⟨isRule, sameLabel, _⟩ := ordinary.label_of_hit wellFormed entryMember held isHit
    rw [isSent] at rewritten
    rw [sameLabel]
    exact ordinary.noImpostor _ isRule label rewritten ⟨rule, member, isLabel⟩

theorem Ordinary.rewritten_cases {config : NftablesConfig} {kernel : Ruleset}
    (ordinary : Ordinary config kernel) (wellFormed : kernel.WellFormed)
    (distinct : config.DistinctKeys) {declared : DeclaredTable}
    (declaredMember : declared ∈ config.tables) {rule : DeclaredRule}
    (ruleMember : rule ∈ declared.rules) {label : Label} (isLabel : rule.label = some label)
    {current : RuleInfo} (held : current ∈ kernel.rules) (sameLabel : current.label = some label) :
    ((∀ entry ∈ (diff order hashOrder config kernel).rulesToReplace,
        hits entry.2.2.2.1 entry.2.2.2.2 current = false) ∧
      rewrittenEntry order (diff order hashOrder config kernel).rulesToReplace current =
          current.entry) ∨
      (rewrittenEntry order (diff order hashOrder config kernel).rulesToReplace current =
            rule.sentEntry order ∧
        ¬ InForce order kernel declared rule ∧
        rule.body.chain = rule.chain) := by
  rcases rewrittenEntry_cases (diff order hashOrder config kernel).rulesToReplace current with
    unchanged | ⟨entry, entryMember, isHit, isSent⟩
  · exact Or.inl unchanged
  · obtain ⟨isRule, entryLabel, _, sameChain⟩ := ordinary.label_of_hit
      wellFormed entryMember held isHit
    have member : rule ∈ config.rules :=
      NftablesConfig.mem_rules.mpr ⟨declared, declaredMember, ruleMember⟩
    have same : entry.2.2.2.2 = rule :=
      distinct.eq_of_label isRule member (entryLabel.symm.trans sameLabel) isLabel
    obtain ⟨other, _, inOther, notInForce, _⟩ := replaced_label entryMember
    rw [same] at isSent sameChain inOther notInForce
    have sameKey : other.key = declared.key :=
      (owner_of_mem inOther).symm.trans (owner_of_mem ruleMember)
    rw [InForce, sameKey] at notInForce
    exact Or.inr ⟨isSent, notInForce, sameChain⟩

/-- A rule that is labelled once with its body afterwards was sent under its
label if it was not in force, and its label was not shared or lost. -/
theorem Ordinary.found {config : NftablesConfig} {kernel : Ruleset}
    (ordinary : Ordinary config kernel) (wellFormed : kernel.WellFormed)
    (distinct : config.DistinctKeys) {declared : DeclaredTable}
    (declaredMember : declared ∈ config.tables) {rule : DeclaredRule}
    (ruleMember : rule ∈ declared.rules) {label : Label} (isLabel : rule.label = some label)
    (labelledOnce : (entriesAfter order hashOrder config kernel).countP
      (fun entry => entry.label = some label) = 1)
    (bodies : ∀ entry ∈ entriesAfter order hashOrder config kernel, entry.label = some label →
        normalizeTlv order (lowerToExpressionBytes order rule.body) =
          normalizeTlv order entry.expressionBytes)
    (declaredLabels : ∀ entry ∈ entriesAfter order hashOrder config kernel,
      ∀ other, entry.label = some other → other.owner = label.owner → other.chain = label.chain →
          ∃ declared ∈ config.rules, declared.label = some other) :
    kernel.labelled label ≤ 1 ∧
      (kernel.labelled label ≠ 0 → ¬ Lost config kernel label.owner (.chain label.chain)) ∧
      (¬ InForce order kernel declared rule → rule.sentLabel = some label) := by
  have member : rule ∈ config.rules :=
    NftablesConfig.mem_rules.mpr ⟨declared, declaredMember, ruleMember⟩
  have addedLabel : ∀ added ∈ (diff order hashOrder config kernel).rulesToAdd,
      added.sentLabel = some label → added = rule ∧ kernel.labelled label = 0 := by
    intro added isAdded isSent
    obtain ⟨addedRule, lacks⟩ := mem_rules_of_added wellFormed isAdded
    have sameLabel := ordinary.noImpostor added addedRule label isSent ⟨rule, member, isLabel⟩
    exact ⟨distinct.eq_of_label addedRule member sameLabel isLabel, lacks label sameLabel⟩
  obtain ⟨entry, entryMember, entryLabel⟩ :=
    countP_pos_iff.mp (Nat.lt_of_lt_of_eq Nat.one_pos labelledOnce.symm)
  rw [decide_eq_true_eq] at entryLabel
  rcases mem_append.mp entryMember with isSurvivor | isAdded
  · obtain ⟨survivor, survivorMember, rfl⟩ := mem_map.mp isSurvivor
    obtain ⟨survivorHeld, survives⟩ := mem_filter.mp survivorMember
    have survivorLabel := ordinary.label_of_rewritten
      wellFormed member isLabel survivorHeld entryLabel
    have allSurvive : ∀ current ∈ kernel.rules,
        current.label = some label → Survives config kernel current :=
      fun current _ sameLabel =>
        (survives_iff_of_label sameLabel survivorLabel).mpr (of_decide_eq_true survives)
    have isHeld : kernel.labelled label ≠ 0 := by
      have labelled : 0 < kernel.labelled label :=
        countP_pos_iff.mpr ⟨survivor, survivorHeld, by simpa using survivorLabel⟩
      omega
    have notLost : ¬ Lost config kernel label.owner (.chain label.chain) := by
      obtain ⟨isOwner, isChain, _⟩ := RuleInfo.label_eq_some.mp survivorLabel
      rw [← isOwner, ← isChain]
      exact (of_decide_eq_true survives).2
    have rewrites := fun current (held : current ∈ kernel.rules) =>
      @Ordinary.rewritten_cases order hashOrder _ _ ordinary wellFormed distinct _
        declaredMember _ ruleMember _ isLabel _ held
    -- if no replacement takes the label, it is counted as before
    have labelledBefore :
        (¬ InForce order kernel declared rule →
          rule.sentLabel = some label) → kernel.labelled label = 1 := by
      intro isSent
      have noneSent : ((diff order hashOrder config kernel).rulesToAdd.map
          (DeclaredRule.sentEntry order)).countP
          (fun entry => entry.label = some label) = 0 := by
        rw [countP_eq_zero]
        intro entry entryMember sentUnder
        obtain ⟨added, isAdded, rfl⟩ := mem_map.mp entryMember
        exact isHeld (addedLabel added isAdded (of_decide_eq_true sentUnder)).2
      rw [entriesAfter, countP_append, noneSent, Nat.add_zero, countP_survivors allSurvive]
        at labelledOnce
      · exact labelledOnce
      · intro current currentMember
        have held := (mem_filter.mp currentMember).1
        refine ⟨ordinary.label_of_rewritten wellFormed member isLabel held, fun sameLabel => ?_⟩
        rcases rewrites current held sameLabel with ⟨_, same⟩ | ⟨same, notInForce, _⟩
        · rw [same]
          exact sameLabel
        · rw [same]
          exact isSent notInForce
    have isSent : ¬ InForce order kernel declared rule → rule.sentLabel = some label := by
      intro notInForce
      obtain ⟨_, _, isKey⟩ := DeclaredRule.label_eq_some.mp isLabel
      rcases action_cases ruleMember isLabel with absent | ⟨found, foundHeld, foundLabel, isFound⟩
      · exact absurd survivorLabel (absent survivor survivorHeld)
      have differs : bodyDiffers order rule.body found = true := by
        by_contra same
        exact notInForce ⟨_, found, isKey, isFound, by simpa using same⟩
      have foundEntry : rewrittenEntry order
          (diff order hashOrder config kernel).rulesToReplace found ∈
            entriesAfter order hashOrder config kernel :=
        mem_append_left _ (mem_map_of_mem (mem_filter.mpr
          ⟨foundHeld, by simpa using allSurvive found foundHeld foundLabel⟩))
      rcases rewrites found foundHeld foundLabel with ⟨_, same⟩ | ⟨same, _, sameChain⟩
      · -- it has the label and another body
        have sameBody := bodies _ foundEntry (by rw [same]; exact foundLabel)
        rw [same] at sameBody
        rw [bodyDiffers, decide_eq_true_eq] at differs
        exact absurd sameBody differs
      · cases sentLabel : rule.sentLabel with
        | none =>
            have once := ordinary.hiddenOnce rule member label isLabel sentLabel
            have isFound : survivor = found :=
              eq_of_countP_le_one once survivorHeld foundHeld
                (by simpa using survivorLabel) (by simpa using foundLabel)
            rw [isFound, same, DeclaredRule.sentEntry, sentLabel] at entryLabel
            cases entryLabel
        | some other =>
            obtain ⟨sentOwner, sentChain, _⟩ := DeclaredRule.sentLabel_eq_some.mp sentLabel
            obtain ⟨isOwner, isChain, _⟩ := DeclaredRule.label_eq_some.mp isLabel
            have sameOwner := ordinary.ownTable rule member
              (by rw [isLabel]; exact Option.some_ne_none _)
            have isDeclared := declaredLabels _ foundEntry other (by rw [same]; exact sentLabel)
              (by rw [← sentOwner, sameOwner, isOwner])
              (by rw [← sentChain, sameChain, isChain])
            rw [← ordinary.noImpostor rule member other sentLabel isDeclared, isLabel]
    exact ⟨(labelledBefore isSent).le, fun _ => notLost, isSent⟩
  · obtain ⟨added, addedMember, rfl⟩ := mem_map.mp isAdded
    obtain ⟨rfl, lacks⟩ := addedLabel added addedMember entryLabel
    rw [lacks]
    exact ⟨Nat.zero_le _, fun held => absurd rfl held, fun _ => entryLabel⟩

end Labels

end Nlink.Nftables
