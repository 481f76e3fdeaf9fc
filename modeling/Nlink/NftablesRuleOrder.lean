import Nlink.NftablesIdempotence

namespace Nlink.Nftables

open Foundation Netlink List

/-!
# The order of the rules in a chain

A chain's rules are tried in order, but a diff compares them as a set: it adds
what the kernel lacks at the end and leaves the rest where it is.  The declared
order is reached exactly when what survives is the beginning of it.
-/

def keysIn (owner : TableKey) (chain : String) (labels : List (Option Label)) : List String :=
  labels.filterMap fun label =>
    label.bind fun label =>
      if label.owner = owner ∧ label.chain = chain then some label.key else none

/-- In every declared chain the rules with keys are the declared ones, in
declared order and with the declared bodies. -/
structure InOrder (order : ByteOrder) (config : NftablesConfig) (kernel : Ruleset) : Prop where
  keys : ∀ declared ∈ config.tables, ∀ chain ∈ declared.chains,
    (kernel.rulesIn declared.key chain.name).filterMap RuleInfo.comment =
      (config.rulesIn declared.key chain.name).filterMap DeclaredRule.handleKey
  bodies : ∀ declared ∈ config.tables, ∀ chain ∈ declared.chains,
    ∀ rule ∈ config.rulesIn declared.key chain.name,
      ∀ current ∈ kernel.rulesIn declared.key chain.name,
        ∀ key, rule.handleKey = some key → current.comment = some key →
          bodyDiffers order rule.body current = false

/-- What survives in a declared chain is the beginning of what is declared, and
the rest is added at the end. -/
structure Orderly (order : ByteOrder) (config : NftablesConfig) (kernel : Ruleset) : Prop where
  sent : SentAsDeclared order config kernel
  atEnd : ∀ rule ∈ config.rules, ∀ label, rule.label = some label →
    kernel.labelled label = 0 → rule.body.position = none
  leading : ∀ declared ∈ config.tables, ∀ chain ∈ declared.chains, ∃ first rest,
      config.rulesIn declared.key chain.name = first ++ rest ∧
        ((survivors config kernel).filter fun rule => rule.isIn declared.key chain.name).filterMap
              RuleInfo.comment =
          first.filterMap DeclaredRule.handleKey ∧
        ∀ rule ∈ rest, ∀ label, rule.label = some label → kernel.labelled label = 0

/-- Rules are added at the end of chains that are declared. -/
structure Plain (config : NftablesConfig) (kernel : Ruleset) : Prop where
  ordinary : Ordinary config kernel
  atEnd : ∀ rule ∈ config.rules, ∀ label, rule.label = some label →
    kernel.labelled label = 0 → rule.body.position = none
  chainDeclared : ∀ rule ∈ config.rules, ∃ declared ∈ config.tables,
    declared.key = rule.owner ∧ DeclaresObject declared (.chain rule.chain)

section Keys

variable (owner : TableKey)
variable (chain : String)

theorem keysIn_label (rules : List RuleInfo) : keysIn owner chain (rules.map RuleInfo.label) =
      (rules.filter fun rule => rule.isIn owner chain).filterMap
        RuleInfo.comment := by
  rw [keysIn, filterMap_map, filterMap_filter]
  refine filterMap_congr fun rule _ => ?_
  cases isKey : rule.comment <;>
    simp [RuleInfo.label, RuleInfo.isIn, isKey]

theorem keysIn_declared (rules : List DeclaredRule) :
    keysIn owner chain (rules.map DeclaredRule.label) =
      (rules.filter fun rule => rule.owner = owner ∧
        rule.chain = chain).filterMap DeclaredRule.handleKey := by
  rw [keysIn, filterMap_map, filterMap_filter]
  refine filterMap_congr fun rule _ => ?_
  cases isKey : rule.handleKey <;>
    simp [DeclaredRule.label, isKey]

theorem count_keysIn (label : Label) (labels : List (Option Label)) :
    (keysIn label.owner label.chain labels).count label.key =
      labels.countP fun other => other = some label := by
  rw [keysIn, List.count, countP_filterMap]
  refine countP_congr fun other _ => ?_
  obtain ⟨labelOwner, labelChain, key⟩ := label
  cases other with
  | none => simp
  | some other =>
      obtain ⟨otherOwner, otherChain, otherKey⟩ := other
      by_cases inChain : otherOwner = labelOwner ∧ otherChain = labelChain
      · simp [inChain.1, inChain.2]
      · simp only [Option.bind_some, if_neg inChain]
        simp only [Option.some.injEq, Label.mk.injEq, decide_eq_true_eq]
        simp
        tauto

end Keys

section Order

variable {order : ByteOrder}
variable {hashOrder : HashOrder}
variable {config : NftablesConfig}
variable {kernel : Ruleset}

variable (config)

/-- Every declared rule has a key. -/
def AllKeyed : Prop :=
  ∀ rule ∈ config.rules, rule.handleKey ≠ none

variable {config}

instance : Decidable (AllKeyed config) :=
  inferInstanceAs (Decidable (∀ rule ∈ config.rules, rule.handleKey ≠ none))

theorem AllKeyed.length_keys (keyed : AllKeyed config) {rules : List DeclaredRule}
    (declared : ∀ rule ∈ rules, rule ∈ config.rules) :
    (rules.filterMap DeclaredRule.handleKey).length = rules.length := by
  induction rules with
  | nil => rfl
  | cons rule rules ih =>
      rw [forall_mem_cons] at declared
      obtain ⟨key, isKey⟩ := Option.ne_none_iff_exists'.mp (keyed rule declared.1)
      rw [filterMap_cons_some isKey, length_cons, length_cons, ih declared.2]

variable {rule : DeclaredRule}

theorem AllKeyed.label_ne_none (keyed : AllKeyed config)
    (member : rule ∈ config.rules) : rule.label ≠ none := by
  rw [DeclaredRule.label, Option.map_eq_none_iff.ne]
  exact keyed rule member

variable {chain : String} {owner : TableKey}

theorem mem_rulesIn :
    rule ∈ config.rulesIn owner chain ↔
      rule ∈ config.rules ∧ rule.owner = owner ∧ rule.chain = chain := by
  simp [NftablesConfig.rulesIn]

theorem nodup_declaredKeys (distinct : config.DistinctKeys) (owner : TableKey) (chain : String) :
    ((config.rulesIn owner chain).filterMap DeclaredRule.handleKey).Nodup := by
  rw [nodup_iff_count_le_one]
  intro key
  have count := count_keysIn ⟨owner, chain, key⟩ (config.rules.map DeclaredRule.label)
  rw [keysIn_declared] at count
  rw [NftablesConfig.rulesIn, count, countP_map]
  exact distinct.countP_label _

theorem entries_commit_atEnd (wellFormed : kernel.WellFormed) (keyed : AllKeyed config)
    (atEnd : ∀ rule ∈ config.rules, ∀ label, rule.label = some label →
      kernel.labelled label = 0 → rule.body.position = none) :
    (kernel.commit ((diff order hashOrder config kernel).batch order)).rules.map RuleInfo.entry =
      entriesAfter order hashOrder config kernel := by
  have noPositions : ∀ rule ∈ (diff order hashOrder config kernel).rulesToAdd,
      rule.body.position = none := by
    intro rule isAdded
    obtain ⟨member, lacks⟩ := mem_rules_of_added wellFormed isAdded
    obtain ⟨label, isLabel⟩ := Option.ne_none_iff_exists'.mp (keyed.label_ne_none member)
    exact atEnd rule member label isLabel (lacks label isLabel)
  exact (entries_commit wellFormed
    (along_findsPosition wellFormed noPositions kernel)).2 noPositions

theorem keys_commit (wellFormed : kernel.WellFormed) (keyed : AllKeyed config)
    (sent : SentAsDeclared order config kernel)
    (atEnd : ∀ rule ∈ config.rules, ∀ label, rule.label = some label →
      kernel.labelled label = 0 → rule.body.position = none)
    (owner : TableKey) (chain : String) :
    ((kernel.commit ((diff order hashOrder config kernel).batch order)).rulesIn owner
          chain).filterMap RuleInfo.comment =
      ((survivors config kernel).filter
          fun rule => rule.isIn owner chain).filterMap RuleInfo.comment ++
        ((config.rulesIn owner chain).filter fun rule =>
          ruleAction order (kernel.rulesIn owner chain) rule =
            .add).filterMap DeclaredRule.handleKey := by
  have entries := @entries_commit_atEnd order hashOrder config kernel wellFormed keyed atEnd
  have labels : (kernel.commit ((diff order hashOrder config kernel).batch order)).rules.map
          RuleInfo.label =
      (survivors config kernel).map RuleInfo.label ++
        (diff order hashOrder config kernel).rulesToAdd.map
          DeclaredRule.label := by
    have ofEntries := congrArg (List.map RuleEntry.label) entries
    rw [entriesAfter, map_append, map_map, map_map, map_map] at ofEntries
    refine Eq.trans ofEntries (congrArg₂ _ ?_ ?_)
    · refine map_congr_left fun current member => ?_
      exact sent.rewritten_label wellFormed (mem_filter.mp member).1
    · refine map_congr_left fun rule isAdded => ?_
      exact sent.of_added wellFormed isAdded (keyed.label_ne_none (mem_rules_of_added
          wellFormed isAdded).1)
  rw [Ruleset.rulesIn, ← keysIn_label, labels, keysIn, filterMap_append, ← keysIn, ← keysIn,
    keysIn_label, keysIn_declared, additions_in wellFormed]

theorem isAdd_in_chain
    (inChain : rule ∈ config.rulesIn owner chain) {label : Label}
    (isLabel : rule.label = some label) :
    ruleAction order (kernel.rulesIn owner chain) rule = .add ↔ kernel.labelled label = 0 := by
  obtain ⟨member, isOwner, isChain⟩ := mem_rulesIn.mp inChain
  obtain ⟨declared, _, ruleMember⟩ := NftablesConfig.mem_rules.mp member
  have action := @isAdd_iff order kernel _ _ ruleMember _ isLabel
  rw [← owner_of_mem ruleMember, isOwner, isChain] at action
  rw [action, Ruleset.labelled, countP_eq_zero]
  simp

theorem Orderly.added_eq {order : ByteOrder} {config : NftablesConfig} {kernel : Ruleset}
    {first rest : List DeclaredRule}
    (isSplit : config.rulesIn owner chain = first ++ rest)
    (survive : ((survivors config kernel).filter
        fun rule => rule.isIn owner chain).filterMap RuleInfo.comment =
      first.filterMap DeclaredRule.handleKey)
    (keyed : AllKeyed config)
    (lacks : ∀ rule ∈ rest, ∀ label, rule.label = some label → kernel.labelled label = 0) :
    ((config.rulesIn owner chain).filter fun rule =>
      ruleAction order (kernel.rulesIn owner chain) rule = .add) = rest := by
  have noFirst : (first.filter fun rule =>
      ruleAction order (kernel.rulesIn owner chain) rule = .add) = [] := by
    rw [filter_eq_nil_iff]
    intro rule member isAdd
    have inChain : rule ∈ config.rulesIn owner chain := by
      rw [isSplit]
      exact mem_append_left _ member
    obtain ⟨isRule, isOwner, isChain⟩ := mem_rulesIn.mp inChain
    obtain ⟨key, isKey⟩ := Option.ne_none_iff_exists'.mp (keyed rule isRule)
    have survives : key ∈ ((survivors config kernel).filter
        fun rule => rule.isIn owner chain).filterMap RuleInfo.comment := by
      rw [survive]
      exact mem_filterMap.mpr ⟨rule, member, isKey⟩
    obtain ⟨current, isSurvivor, sameKey⟩ := mem_filterMap.mp survives
    obtain ⟨currentMember, isIn⟩ := mem_filter.mp isSurvivor
    have held := (mem_filter.mp currentMember).1
    have isLabel : rule.label = some ⟨owner, chain, key⟩ :=
      DeclaredRule.label_eq_some.mpr ⟨isOwner, isChain, isKey⟩
    rw [RuleInfo.isIn, decide_eq_true_eq] at isIn
    rw [decide_eq_true_eq, isAdd_in_chain inChain isLabel,
      Ruleset.labelled, countP_eq_zero] at isAdd
    refine isAdd current held (decide_eq_true ?_)
    exact RuleInfo.label_eq_some.mpr ⟨isIn.1, isIn.2, sameKey⟩
  have allRest : (rest.filter fun rule =>
      ruleAction order (kernel.rulesIn owner chain) rule = .add) = rest := by
    rw [filter_eq_self]
    intro rule member
    have inChain : rule ∈ config.rulesIn owner chain := by
      rw [isSplit]
      exact mem_append_right _ member
    obtain ⟨label, isLabel⟩ := Option.ne_none_iff_exists'.mp
      (keyed.label_ne_none (mem_rulesIn.mp inChain).1)
    rw [decide_eq_true_eq, isAdd_in_chain inChain isLabel]
    exact lacks rule member label isLabel
  rw [isSplit, filter_append, noFirst, allRest, List.nil_append]

theorem labelled_le_one (distinct : config.DistinctKeys)
    {first rest : List DeclaredRule} (isSplit : config.rulesIn owner chain = first ++ rest)
    (survive : ((survivors config kernel).filter
        fun rule => rule.isIn owner chain).filterMap RuleInfo.comment =
      first.filterMap DeclaredRule.handleKey)
    {label : Label} (isOwner : label.owner = owner) (isChain : label.chain = chain)
    {current : RuleInfo} (isSurvivor : current ∈ survivors config kernel)
    (sameLabel : current.label = some label) : kernel.labelled label ≤ 1 := by
  have once : (first.filterMap DeclaredRule.handleKey).Nodup := by
    have declaredOnce := nodup_declaredKeys distinct owner chain
    rw [isSplit, filterMap_append] at declaredOnce
    exact (nodup_append.mp declaredOnce).1
  have sameCount : kernel.labelled label = ((survivors config kernel).map RuleInfo.label).countP
        fun other => other = some label := by
    rw [countP_map, survivors, countP_filter, Ruleset.labelled]
    refine countP_congr fun other _ => ?_
    simp only [decide_eq_true_eq, Function.comp_apply, Bool.and_eq_true]
    refine ⟨fun otherLabel => ⟨otherLabel, ?_⟩, And.left⟩
    exact (survives_iff_of_label otherLabel sameLabel).mpr
      (of_decide_eq_true (mem_filter.mp isSurvivor).2)
  rw [sameCount, ← count_keysIn, keysIn_label, isOwner, isChain, survive]
  exact nodup_iff_count_le_one.mp once label.key

/-- Orderly chains end up in order. -/
theorem Orderly.inOrder {order : ByteOrder} {config : NftablesConfig} {kernel : Ruleset}
    (orderly : Orderly order config kernel) (wellFormed : kernel.WellFormed)
    (distinct : config.DistinctKeys) (keyed : AllKeyed config) :
    InOrder order config
      (kernel.commit ((diff order hashOrder config kernel).batch order)) := by
  refine ⟨?_, ?_⟩
  · intro declared declaredMember chain chainMember
    obtain ⟨first, rest, isSplit, survive, lacks⟩ :=
      orderly.leading declared declaredMember chain chainMember
    rw [keys_commit wellFormed keyed orderly.sent orderly.atEnd, Orderly.added_eq isSplit survive
      keyed lacks, survive, isSplit, filterMap_append]
  · intro declared declaredMember chain chainMember rule ruleMember current
      currentMember key isKey sameKey
    obtain ⟨first, rest, isSplit, survive, lacks⟩ :=
      orderly.leading declared declaredMember chain chainMember
    obtain ⟨member, isOwner, isChain⟩ := mem_rulesIn.mp ruleMember
    obtain ⟨held, heldOwner, heldChain⟩ := Ruleset.mem_rulesIn.mp currentMember
    have isLabel : rule.label = some ⟨declared.key, chain.name, key⟩ :=
      DeclaredRule.label_eq_some.mpr ⟨isOwner, isChain, isKey⟩
    have entryLabel : current.entry.label = some ⟨declared.key, chain.name, key⟩ :=
      RuleInfo.label_eq_some.mpr ⟨heldOwner, heldChain, sameKey⟩
    have entryMember : current.entry ∈ entriesAfter order hashOrder config kernel := by
      rw [← entries_commit_atEnd wellFormed keyed orderly.atEnd]
      exact mem_map_of_mem held
    have sameBody : normalizeTlv order (lowerToExpressionBytes order rule.body) =
          normalizeTlv order current.entry.expressionBytes := by
      rcases mem_append.mp entryMember with isSurvivor | isAdded
      · obtain ⟨before, beforeMember, isEntry⟩ := mem_map.mp isSurvivor
        have beforeHeld := (mem_filter.mp beforeMember).1
        have beforeLabel : before.label = some ⟨declared.key, chain.name, key⟩ := by
          rw [← orderly.sent.rewritten_label wellFormed beforeHeld, isEntry]
          exact entryLabel
        rw [← isEntry]
        exact body_rewrittenEntry wellFormed distinct orderly.sent member isLabel
          (labelled_le_one distinct isSplit survive rfl rfl
            beforeMember beforeLabel) beforeHeld beforeLabel
      · obtain ⟨added, addedMember, isEntry⟩ := mem_map.mp isAdded
        have addedRule := (mem_rules_of_added wellFormed addedMember).1
        have addedLabel : added.label = some ⟨declared.key, chain.name, key⟩ := by
          rw [← orderly.sent.of_added wellFormed addedMember (keyed.label_ne_none addedRule)]
          rw [← isEntry] at entryLabel
          exact entryLabel
        rw [← isEntry, distinct.eq_of_label member addedRule isLabel addedLabel]
        rfl
    rw [bodyDiffers, decide_eq_false_iff_not, not_not]
    exact sameBody

/-- Plain rules that end up in order were orderly. -/
theorem InOrder.orderly {order : ByteOrder} {config : NftablesConfig} {kernel : Ruleset}
    (inOrder : InOrder order config
      (kernel.commit ((diff order hashOrder config kernel).batch order)))
    (plain : Plain config kernel) (wellFormed : kernel.WellFormed) (distinct : config.DistinctKeys)
    (keyed : AllKeyed config) : Orderly order config kernel := by
  have entries := @entries_commit_atEnd order hashOrder config kernel wellFormed keyed plain.atEnd
  have labels : (entriesAfter order hashOrder config kernel).map RuleEntry.label =
      (kernel.commit ((diff order hashOrder config kernel).batch
        order)).rules.map RuleInfo.label := by
    rw [← entries, map_map]
    rfl
  have sent : SentAsDeclared order config kernel := by
    intro owner ownerMember rule ruleMember labelled notInForce
    have member : rule ∈ config.rules :=
      NftablesConfig.mem_rules.mpr ⟨owner, ownerMember, ruleMember⟩
    obtain ⟨label, isLabel⟩ := Option.ne_none_iff_exists'.mp labelled
    obtain ⟨isOwner, isChain, isKey⟩ := DeclaredRule.label_eq_some.mp isLabel
    obtain ⟨declared, declaredMember, sameKey, chain, chainMember, isName⟩ :=
      plain.chainDeclared rule member
    have keys := inOrder.keys declared declaredMember chain chainMember
    have bodies := inOrder.bodies declared declaredMember chain chainMember
    rw [sameKey, isName, isOwner, isChain] at keys bodies
    have keysAfter : keysIn label.owner label.chain
        ((entriesAfter order hashOrder config kernel).map RuleEntry.label) =
          keysIn label.owner label.chain (config.rules.map DeclaredRule.label) := by
      rw [labels, keysIn_label, keysIn_declared]
      exact keys
    rw [isLabel]
    refine (@Ordinary.found order hashOrder _ _ plain.ordinary wellFormed distinct _
      ownerMember _ ruleMember _ isLabel ?_ ?_ ?_).2.2 notInForce
    · have count := count_keysIn label
        ((entriesAfter order hashOrder config kernel).map RuleEntry.label)
      rw [keysAfter, count_keysIn, countP_map, countP_map] at count
      refine Eq.trans count.symm (le_antisymm (distinct.countP_label label) ?_)
      exact countP_pos_iff.mpr ⟨rule, member, by simpa using isLabel⟩
    · intro entry entryMember entryLabel
      rw [← entries] at entryMember
      obtain ⟨current, held, rfl⟩ := mem_map.mp entryMember
      obtain ⟨heldOwner, heldChain, heldKey⟩ := RuleInfo.label_eq_some.mp entryLabel
      have same := bodies rule (mem_rulesIn.mpr ⟨member, isOwner, isChain⟩)
        current (Ruleset.mem_rulesIn.mpr ⟨held, heldOwner, heldChain⟩) _ isKey
        heldKey
      rw [bodyDiffers, decide_eq_false_iff_not, not_not] at same
      exact same
    · intro entry entryMember other entryLabel sameOwner sameChain
      have isThere : other.key ∈ keysIn label.owner label.chain
          ((entriesAfter order hashOrder config kernel).map RuleEntry.label) := by
        refine mem_filterMap.mpr ⟨some other, ?_, ?_⟩
        · exact mem_map.mpr ⟨entry, entryMember, entryLabel⟩
        · rw [Option.bind_some, if_pos ⟨sameOwner, sameChain⟩]
      rw [keysAfter, keysIn_declared] at isThere
      obtain ⟨otherRule, otherMember, otherKey⟩ := mem_filterMap.mp isThere
      obtain ⟨otherRuleMember, otherOwner, otherChain⟩ := mem_rulesIn.mp otherMember
      exact ⟨otherRule, otherRuleMember, DeclaredRule.label_eq_some.mpr
        ⟨otherOwner.trans sameOwner.symm, otherChain.trans sameChain.symm, otherKey⟩⟩
  refine ⟨sent, plain.atEnd, ?_⟩
  intro declared declaredMember chain chainMember
  have keys := inOrder.keys declared declaredMember chain chainMember
  rw [keys_commit wellFormed keyed sent plain.atEnd] at keys
  generalize isSurviving : ((survivors config kernel).filter
    fun rule => rule.isIn declared.key chain.name).filterMap RuleInfo.comment = surviving at keys
  -- the declared rules are cut where the survivors end
  have inRules : ∀ rule ∈ config.rulesIn declared.key chain.name, rule ∈ config.rules :=
    fun rule member => (mem_rulesIn.mp member).1
  have enough : surviving.length ≤ (config.rulesIn declared.key chain.name).length := by
    rw [← keyed.length_keys inRules, ← keys, length_append]
    exact Nat.le_add_right _ _
  refine ⟨(config.rulesIn declared.key chain.name).take surviving.length, (config.rulesIn
    declared.key chain.name).drop surviving.length, (take_append_drop _ _).symm, ?_⟩
  have cut := keys
  rw [← take_append_drop surviving.length (config.rulesIn declared.key chain.name),
    filterMap_append, take_append_drop] at cut
  have sameLength : surviving.length =
      (((config.rulesIn declared.key chain.name).take
        surviving.length).filterMap DeclaredRule.handleKey).length := by
    rw [keyed.length_keys fun rule member => inRules rule (mem_of_mem_take member),
      length_take, Nat.min_eq_left enough]
  obtain ⟨firstKeys, restKeys⟩ := append_inj cut sameLength
  refine ⟨firstKeys, ?_⟩
  intro rule isRest label isLabel
  have inChain := mem_of_mem_drop isRest
  obtain ⟨member, isOwner, isChain⟩ := mem_rulesIn.mp inChain
  obtain ⟨labelOwner, labelChain, isKey⟩ := DeclaredRule.label_eq_some.mp isLabel
  have isAddedKey : label.key ∈
      ((config.rulesIn declared.key chain.name).filter fun rule =>
        ruleAction order (kernel.rulesIn declared.key chain.name) rule =
          .add).filterMap DeclaredRule.handleKey := by
    rw [restKeys]
    exact mem_filterMap.mpr ⟨rule, isRest, isKey⟩
  obtain ⟨added, addedMember, addedKey⟩ := mem_filterMap.mp isAddedKey
  obtain ⟨addedChain, isAdd⟩ := mem_filter.mp addedMember
  obtain ⟨addedRule, addedOwner, addedIn⟩ := mem_rulesIn.mp addedChain
  have addedLabel : added.label = some label :=
    DeclaredRule.label_eq_some.mpr
      ⟨addedOwner.trans (isOwner.symm.trans labelOwner),
        addedIn.trans (isChain.symm.trans labelChain), addedKey⟩
  rw [← isAdd_in_chain addedChain addedLabel]
  exact of_decide_eq_true isAdd

variable (order hashOrder config kernel)

/-- An apply leaves the declared chains in order if they are orderly, and only
then if the rules are plain; an empty diff leaves everything as it is. -/
theorem apply_inOrder_iff (wellFormed : kernel.WellFormed) (distinct : config.DistinctKeys)
    (keyed : AllKeyed config) {operations : List BatchOp}
    (applied : (diff order hashOrder config kernel).apply order = .ok operations) :
    ((diff order hashOrder config kernel).isEmpty = true → kernel.commit operations = kernel) ∧
      (Orderly order config kernel → InOrder order config (kernel.commit operations)) ∧
      (Plain config kernel → InOrder order config (kernel.commit operations) →
          Orderly order config kernel) := by
  obtain ⟨_, rfl⟩ := (NftablesDiff.apply_eq_ok order _ _).mp applied
  refine ⟨?_, ?_, ?_⟩
  · intro nothing
    rw [(NftablesDiff.batch_of_isEmpty order nothing).2]
    rfl
  · exact fun orderly => orderly.inOrder wellFormed distinct keyed
  · exact fun plain inOrder => inOrder.orderly plain wellFormed distinct keyed

end Order

/-- A chain that accepts under one key and then drops under another. -/
def acceptThenDrop : NftablesConfig :=
  NftablesConfig.new.table "filter" .inet fun declared =>
    ((declared.chain { DeclaredChain.new "input" with hook := some .input }).ruleKeyed
        "input" "accept" fun rule => { rule with exprs := [.verdict .accept] }).ruleKeyed
        "input" "drop" fun rule => { rule with exprs := [.verdict .drop] }

def keyedRule (key : String) (handle : Nat) (verdict : Verdict) : RuleInfo where
  table := "filter"
  chain := "input"
  family := .inet
  handle := handle
  userdataRaw := encodeNlinkComment key
  expressionBytes := expressionBytes .little [.verdict verdict]
  references := []

/-- The kernel's chain drops before it accepts. -/
def dropThenAccept : Ruleset where
  tables := [{ name := "filter", family := .inet, flags := 0 }]
  chains :=
    [NewChain.create (chainMessage "filter" .inet
      { DeclaredChain.new "input" with hook := some .input })]
  rules := [keyedRule "drop" 1 .drop, keyedRule "accept" 2 .accept]
  sets := []
  flowtables := []
  nextHandle := 3

theorem dropThenAccept_wellFormed : dropThenAccept.WellFormed := by decide

/-- The kernel's chain has the first of the two rules. -/
def acceptAlone : Ruleset :=
  { dropThenAccept with rules := [keyedRule "accept" 2 .accept] }

theorem acceptAlone_orderly : Orderly .little acceptThenDrop acceptAlone where
  sent := by
    intro declared declaredMember rule ruleMember _ _
    cases mem_singleton.mp declaredMember
    have trips : RoundTrips "drop" ∧ RoundTrips "accept" := by decide
    rcases mem_cons.mp ruleMember with rfl | ruleMember
    · exact sentLabel_of_roundTrips rfl trips.2 rfl rfl rfl
    · cases mem_singleton.mp ruleMember
      exact sentLabel_of_roundTrips rfl trips.1 rfl rfl rfl
  atEnd := by
    intro rule member _ _ _
    rcases mem_cons.mp member with rfl | member
    · rfl
    · cases mem_singleton.mp member
      rfl
  leading := by
    intro declared declaredMember chain chainMember
    cases mem_singleton.mp declaredMember
    cases mem_singleton.mp chainMember
    refine ⟨acceptThenDrop.rules.take 1, acceptThenDrop.rules.drop 1, rfl, by decide, ?_⟩
    intro rule member label isLabel
    cases mem_singleton.mp member
    cases isLabel
    decide

/-- The second rule is added behind the first. -/
theorem apply_inOrder_iff_appended : InOrder .little acceptThenDrop
      (acceptAlone.commit
        ((diff .little .insertion acceptThenDrop acceptAlone).batch .little)) := by
  have applied : (diff .little .insertion acceptThenDrop acceptAlone).apply .little =
      .ok ((diff .little .insertion acceptThenDrop acceptAlone).batch .little) := by
    refine (NftablesDiff.apply_eq_ok .little _ _).mpr ⟨?_, rfl⟩
    intro entry member
    cases member
  exact (apply_inOrder_iff .little .insertion acceptThenDrop acceptAlone (by decide) (by decide)
    (by decide) applied).2.1 acceptAlone_orderly

theorem keyedRule_comment {key : String} (trips : RoundTrips key) (handle : Nat)
    (verdict : Verdict) : (keyedRule key handle verdict).comment = some key :=
  (parse_encode_eq_some_self key).mpr trips

theorem keyedRule_body {rule : DeclaredRule} {verdict : Verdict}
    (isBody : rule.body.exprs = [.verdict verdict]) (key : String) (handle : Nat) :
    bodyDiffers .little rule.body (keyedRule key handle verdict) = false := by
  rw [bodyDiffers, lowerToExpressionBytes_eq, isBody]
  exact decide_eq_false (not_not.mpr rfl)

theorem dropThenAccept_comment {current : RuleInfo} {key : String}
    (member : current ∈ dropThenAccept.rules) (isKey : current.comment = some key) :
    (key = "drop" ∧ current = keyedRule "drop" 1 .drop) ∨
      (key = "accept" ∧ current = keyedRule "accept" 2 .accept) := by
  have trips : RoundTrips "drop" ∧ RoundTrips "accept" := by decide
  rcases mem_cons.mp member with rfl | member
  · rw [keyedRule_comment trips.1, Option.some.injEq] at isKey
    exact Or.inl ⟨isKey.symm, rfl⟩
  · cases mem_singleton.mp member
    rw [keyedRule_comment trips.2, Option.some.injEq] at isKey
    exact Or.inr ⟨isKey.symm, rfl⟩

/-- The diff does not see the order. -/
theorem acceptThenDrop_isEmpty : (diff .little .insertion acceptThenDrop dropThenAccept).isEmpty =
      true := by
  have noAdditions : (diff .little .insertion acceptThenDrop dropThenAccept).rulesToAdd = [] := by
    rw [eq_nil_iff_forall_not_mem]
    intro rule isAdded
    rw [mem_rulesToAdd_iff dropThenAccept_wellFormed] at isAdded
    obtain ⟨declared, declaredMember, ruleMember, absent⟩ := isAdded
    have trips : RoundTrips "drop" ∧ RoundTrips "accept" := by decide
    cases mem_singleton.mp declaredMember
    rcases mem_cons.mp ruleMember with rfl | ruleMember
    · refine absent _ rfl (keyedRule "accept" 2 .accept) (by simp
        [dropThenAccept]) (RuleInfo.label_eq_some.mpr ⟨rfl, rfl, ?_⟩)
      exact keyedRule_comment trips.2 2 .accept
    · cases mem_singleton.mp ruleMember
      refine absent _ rfl (keyedRule "drop" 1 .drop) (by simp
        [dropThenAccept]) (RuleInfo.label_eq_some.mpr ⟨rfl, rfl, ?_⟩)
      exact keyedRule_comment trips.1 1 .drop
  have noReplacements : (diff .little .insertion acceptThenDrop
      dropThenAccept).rulesToReplace = [] := by
    rw [eq_nil_iff_forall_not_mem]
    rintro entry isReplaced
    obtain ⟨declared, declaredMember, ruleMember, key, current, isKey, found,
      differs, _⟩ := replaced_held isReplaced
    obtain ⟨isIn, sameKey⟩ := kernelByKey_eq_some found
    have held := (Ruleset.mem_rulesIn.mp isIn).1
    cases mem_singleton.mp declaredMember
    rcases mem_cons.mp ruleMember with isRule | ruleMember
    · rw [isRule] at isKey differs
      cases isKey
      rcases dropThenAccept_comment held sameKey with ⟨isDrop, _⟩ | ⟨_, rfl⟩
      · exact absurd isDrop (by decide)
      · rw [keyedRule_body rfl] at differs
        cases differs
    · rw [mem_singleton.mp ruleMember] at isKey differs
      cases isKey
      rcases dropThenAccept_comment held sameKey with ⟨_, rfl⟩ | ⟨isAccept, _⟩
      · rw [keyedRule_body rfl] at differs
        cases differs
      · exact absurd isAccept (by decide)
  have noDeletions : (diff .little .insertion acceptThenDrop
      dropThenAccept).rulesToDelete = [] := by decide +kernel
  rw [NftablesDiff.isEmpty, noAdditions, noReplacements, noDeletions]
  decide

/-- An empty diff does not mean that the rules are in order. -/
theorem acceptThenDrop_not_inOrder : dropThenAccept.WellFormed ∧ acceptThenDrop.DistinctKeys ∧
      AllKeyed acceptThenDrop ∧
      (diff .little .insertion acceptThenDrop dropThenAccept).isEmpty = true ∧
      (diff .little .insertion acceptThenDrop dropThenAccept).apply .little = .ok [] ∧
      ¬ InOrder .little acceptThenDrop (dropThenAccept.commit []) := by
  refine ⟨dropThenAccept_wellFormed, by decide, by decide, acceptThenDrop_isEmpty, ?_, ?_⟩
  · rw [NftablesDiff.apply, if_pos]
    exact (NftablesDiff.changeCount_eq_zero _).mpr acceptThenDrop_isEmpty
  · intro inOrder
    have trips : RoundTrips "drop" ∧ RoundTrips "accept" := by decide
    have keys : [keyedRule "drop" 1 .drop,
        keyedRule "accept" 2 .accept].filterMap RuleInfo.comment = ["accept", "drop"] :=
      inOrder.keys _ (mem_singleton_self _) _ (mem_singleton_self _)
    rw [filterMap_cons_some (keyedRule_comment trips.1 1 .drop)] at keys
    exact absurd (List.cons.inj keys).1 (by decide)

end Nlink.Nftables
