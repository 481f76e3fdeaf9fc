import Nlink.NftablesBatchOrder
import Nlink.NftablesRuleLabels

namespace Nlink.Nftables

open Foundation Netlink List Ruleset

/-!
# Applying a diff twice

The key of a rule comes back from the kernel only if the rule was sent under
it, and a diff looks at one rule for each key.  The next diff therefore leaves
keyed rules alone exactly when each of them is sent under its label, is alone
with it in the kernel, and no declaration or deleted chain takes it away.
-/

/-- A diff leaves the keyed rules alone, and each declared key labels one rule
of its chain. -/
structure KeysSettled (order : ByteOrder) (hashOrder : HashOrder)
    (config : NftablesConfig) (kernel : Ruleset) : Prop where
  noAdditions : ∀ rule ∈ (diff order hashOrder config kernel).rulesToAdd, rule.handleKey = none
  noReplacements : (diff order hashOrder config kernel).rulesToReplace = []
  noDeletions : (diff order hashOrder config kernel).rulesToDelete = []
  labelledOnce : ∀ rule ∈ config.rules, ∀ label, rule.label = some label → kernel.labelled label = 1

/-- What is read of the kernel's rules is what keyed rules declare. -/
structure EntriesSettled (order : ByteOrder) (config : NftablesConfig)
    (entries : List RuleEntry) : Prop where
  labelledOnce : ∀ rule ∈ config.rules, ∀ label, rule.label = some label →
    entries.countP (fun entry => entry.label = some label) = 1
  bodies : ∀ rule ∈ config.rules, ∀ label, rule.label = some label →
    ∀ entry ∈ entries, entry.label = some label →
      normalizeTlv order (lowerToExpressionBytes order rule.body) =
        normalizeTlv order entry.expressionBytes
  kept : ∀ entry ∈ entries, ∀ label, entry.label = some label → config.Keeps label

theorem EntriesSettled.of_perm {order : ByteOrder} {config : NftablesConfig}
    {first second : List RuleEntry} (settled : EntriesSettled order config first)
    (perm : first.Perm second) :
    EntriesSettled order config second where
  labelledOnce := by
    intro rule member label isLabel
    rw [← perm.countP_eq]
    exact settled.labelledOnce rule member label isLabel
  bodies := by
    intro rule member label isLabel entry entryMember
    exact settled.bodies rule member label isLabel entry (perm.mem_iff.mpr entryMember)
  kept := by
    intro entry entryMember
    exact settled.kept entry (perm.mem_iff.mpr entryMember)

section Idempotence

variable (order : ByteOrder)
variable (hashOrder : HashOrder)
variable (config : NftablesConfig)
variable (kernel : Ruleset)

/-- The diff of a kernel that holds the declared tables reads nothing but
labels and bodies. -/
theorem keysSettled_iff (holds : HoldsTables config kernel) :
    KeysSettled order hashOrder config kernel ↔
      EntriesSettled order config (kernel.rules.map RuleInfo.entry) := by
  have count : ∀ label, (kernel.rules.map RuleInfo.entry).countP
          (fun entry => entry.label = some label) =
        kernel.labelled label := by
    intro label
    rw [countP_map]
    rfl
  constructor
  · intro settled
    refine ⟨?_, ?_, ?_⟩
    · intro rule member label isLabel
      rw [count]
      exact settled.labelledOnce rule member label isLabel
    · intro rule member label isLabel entry entryMember sameLabel
      obtain ⟨current, held, rfl⟩ := mem_map.mp entryMember
      obtain ⟨declared, declaredMember, ruleMember⟩ := NftablesConfig.mem_rules.mp member
      have once := (settled.labelledOnce rule member label isLabel).le
      obtain ⟨_, _, isKey⟩ := DeclaredRule.label_eq_some.mp isLabel
      rcases action_cases ruleMember isLabel with absent | ⟨found, foundHeld, foundLabel, isFound⟩
      · exact absurd sameLabel (absent current held)
      · have same : current = found :=
          eq_of_countP_le_one once held foundHeld (by simpa using sameLabel)
            (by simpa using foundLabel)
        by_contra differs
        have isReplaced : (declared.name, declared.family, rule.chain, found.handle, rule) ∈
              (diff order hashOrder config kernel).rulesToReplace := by
          rw [diff, mem_rulesToReplace]
          refine ⟨declared, declaredMember, rfl, holds declared declaredMember, ruleMember, rfl, ?_⟩
          rw [ruleAction_eq_replace]
          refine ⟨_, found, isKey, isFound, ?_, rfl⟩
          rw [← same]
          simpa [bodyDiffers] using differs
        rw [settled.noReplacements] at isReplaced
        cases isReplaced
    · intro entry entryMember label isLabel declared declaredMember sameKey touches
      obtain ⟨current, held, rfl⟩ := mem_map.mp entryMember
      obtain ⟨isOwner, isChain, isKey⟩ := RuleInfo.label_eq_some.mp isLabel
      by_contra undeclared
      have isDeleted : (declared.name, declared.family, label.chain, current.handle) ∈
            (diff order hashOrder config kernel).rulesToDelete := by
        rw [diff, mem_rulesToDelete]
        exact ⟨declared, declaredMember, rfl, holds declared declaredMember,
          current, mem_rulesIn.mpr ⟨held, isOwner.trans sameKey.symm, isChain⟩,
          rfl, touches, label.key, isKey, undeclared⟩
      rw [settled.noDeletions] at isDeleted
      cases isDeleted
  · intro settled
    have once : ∀ rule ∈ config.rules, ∀ label, rule.label = some label →
        kernel.labelled label = 1 := by
      intro rule member label isLabel
      rw [← count]
      exact settled.labelledOnce rule member label isLabel
    refine ⟨?_, ?_, ?_, once⟩
    · intro rule isAdded
      rw [diff, mem_rulesToAdd] at isAdded
      obtain ⟨declared, declaredMember, ruleMember, isAdd⟩ := isAdded
      have isAdd := isAdd (holds declared declaredMember)
      cases isKey : rule.handleKey with
      | none => rfl
      | some key =>
          have isLabel : rule.label = some ⟨rule.owner, rule.chain, key⟩ :=
            DeclaredRule.label_eq_some.mpr ⟨rfl, rfl, isKey⟩
          rw [isAdd_iff ruleMember isLabel] at isAdd
          have labelled := once rule
            (NftablesConfig.mem_rules.mpr ⟨declared, declaredMember, ruleMember⟩) _ isLabel
          obtain ⟨current, held, sameLabel⟩ :=
            countP_pos_iff.mp (Nat.lt_of_lt_of_eq Nat.one_pos labelled.symm)
          exact absurd (of_decide_eq_true sameLabel) (isAdd current held)
    · rw [eq_nil_iff_forall_not_mem]
      rintro ⟨table, family, chain, handle, rule⟩ isReplaced
      obtain ⟨declared, declaredMember, ruleMember, key, current, isKey, found,
        differs, _⟩ := replaced_held isReplaced
      obtain ⟨held, sameLabel⟩ := label_of_found ruleMember isKey found
      have isLabel : rule.label = some ⟨rule.owner, rule.chain, key⟩ :=
        DeclaredRule.label_eq_some.mpr ⟨rfl, rfl, isKey⟩
      have sameBody := settled.bodies rule
        (NftablesConfig.mem_rules.mpr ⟨declared, declaredMember, ruleMember⟩)
        _ isLabel current.entry (mem_map_of_mem held)
        (sameLabel.trans isLabel)
      rw [bodyDiffers, decide_eq_true_eq] at differs
      exact differs sameBody
    · rw [eq_nil_iff_forall_not_mem]
      rintro ⟨table, family, chain, handle⟩ isDeleted
      rw [diff, mem_rulesToDelete] at isDeleted
      obtain ⟨declared, declaredMember, _, _, current, isIn, _, touches, key,
        isKey, undeclared⟩ := isDeleted
      obtain ⟨held, isOwner, isChain⟩ := mem_rulesIn.mp isIn
      refine undeclared (settled.kept current.entry (mem_map_of_mem held)
        ⟨declared.key, chain, key⟩ ?_ declared declaredMember rfl touches)
      exact RuleInfo.label_eq_some.mpr ⟨isOwner, isChain, isKey⟩

/-- Each declared key comes back once, and nothing takes it away. -/
structure KeysFound : Prop where
  sent : SentAsDeclared order config kernel
  once : ∀ rule ∈ config.rules, ∀ label, rule.label = some label → kernel.labelled label ≤ 1
  chainKept : ∀ rule ∈ config.rules, ∀ label, rule.label = some label → kernel.labelled label ≠ 0 →
      ¬ Lost config kernel label.owner (.chain label.chain)
  kept : ∀ rule ∈ config.rules, ∀ label, rule.label = some label → config.Keeps label
  unlabelled : ∀ rule ∈ config.rules, rule.label = none → ∀ label, rule.sentLabel = some label →
      ∀ declared ∈ config.tables, declared.key = label.owner → ¬ Touches declared label.chain

variable {order config kernel}

theorem KeysFound.sentLabel_iff (found : KeysFound order config kernel)
    (wellFormed : kernel.WellFormed) {rule : DeclaredRule} (member : rule ∈ config.rules)
    {label : Label} (isLabel : rule.label = some label) {added : DeclaredRule}
    (isAdded : added ∈ (diff order hashOrder config kernel).rulesToAdd) :
    added.sentLabel = some label ↔ added.label = some label := by
  cases addedLabel : added.label with
  | some other =>
      rw [found.sent.of_added wellFormed isAdded
        (by rw [addedLabel]; exact Option.some_ne_none _), addedLabel]
  | none =>
      refine ⟨fun isSent => ?_, fun isNone => by cases isNone⟩
      obtain ⟨declared, declaredMember, ruleMember⟩ := NftablesConfig.mem_rules.mp member
      obtain ⟨isOwner, isChain, _⟩ := DeclaredRule.label_eq_some.mp isLabel
      exact absurd (Or.inl ⟨rule, ruleMember, isChain⟩)
        (found.unlabelled added (mem_rules_of_added wellFormed
            isAdded).1 addedLabel label isSent declared declaredMember
          ((owner_of_mem ruleMember).symm.trans isOwner))

theorem KeysFound.survives (found : KeysFound order config kernel) {rule : DeclaredRule}
    (member : rule ∈ config.rules) {label : Label} (isLabel : rule.label = some label)
    {current : RuleInfo} (held : current ∈ kernel.rules) (sameLabel : current.label = some label) :
    Survives config kernel current := by
  obtain ⟨isOwner, isChain, _⟩ := RuleInfo.label_eq_some.mp sameLabel
  refine ⟨?_, ?_⟩
  · rw [stays_iff]
    intro other isOther
    rw [sameLabel, Option.some.injEq] at isOther
    rw [← isOther]
    exact found.kept rule member label isLabel
  · rw [isOwner, isChain]
    refine found.chainKept rule member label isLabel ?_
    have labelled : 0 < kernel.labelled label :=
      countP_pos_iff.mpr ⟨current, held, by simpa using sameLabel⟩
    omega

/-- If each declared key comes back once, the keyed rules are settled. -/
theorem KeysFound.entriesSettled (found : KeysFound order config kernel)
    (wellFormed : kernel.WellFormed) (distinct : config.DistinctKeys) :
    EntriesSettled order config (entriesAfter order hashOrder config kernel) := by
  refine ⟨?_, ?_, ?_⟩
  · intro rule member label isLabel
    rw [entriesAfter, countP_append, countP_survivors
        (fun current held => found.survives member isLabel held)
        (fun current isSurvivor => by
          rw [found.sent.rewritten_label wellFormed (mem_filter.mp isSurvivor).1]),
      countP_sent
        (fun added isAdded => found.sentLabel_iff hashOrder wellFormed member isLabel isAdded),
      countP_additions wellFormed distinct member isLabel]
    have once := found.once rule member label isLabel
    split <;> omega
  · intro rule member label isLabel entry entryMember sameLabel
    rcases mem_append.mp entryMember with isSurvivor | isAdded
    · obtain ⟨current, currentMember, rfl⟩ := mem_map.mp isSurvivor
      have held := (mem_filter.mp currentMember).1
      rw [found.sent.rewritten_label wellFormed held] at sameLabel
      exact body_rewrittenEntry wellFormed distinct found.sent member isLabel
        (found.once rule member label isLabel) held sameLabel
    · obtain ⟨added, addedMember, rfl⟩ := mem_map.mp isAdded
      rw [DeclaredRule.sentEntry, found.sentLabel_iff hashOrder wellFormed
        member isLabel addedMember] at sameLabel
      rw [distinct.eq_of_label member (mem_rules_of_added wellFormed
          addedMember).1 isLabel sameLabel]
      rfl
  · intro entry entryMember label sameLabel
    rcases mem_append.mp entryMember with isSurvivor | isAdded
    · obtain ⟨current, currentMember, rfl⟩ := mem_map.mp isSurvivor
      obtain ⟨held, survives⟩ := mem_filter.mp currentMember
      rw [found.sent.rewritten_label wellFormed held] at sameLabel
      exact stays_iff.mp (of_decide_eq_true survives).1 label sameLabel
    · obtain ⟨added, addedMember, rfl⟩ := mem_map.mp isAdded
      have addedRule := (mem_rules_of_added wellFormed addedMember).1
      cases addedLabel : added.label with
      | none =>
          intro declared declaredMember sameKey touches
          exact absurd touches (found.unlabelled added addedRule addedLabel
            label sameLabel declared declaredMember sameKey)
      | some other =>
          rw [DeclaredRule.sentEntry, found.sent.of_added wellFormed
            addedMember (by rw [addedLabel]; exact Option.some_ne_none _)]
            at sameLabel
          exact found.kept added addedRule label sameLabel

/-- Without detours, settled keyed rules come back once each. -/
theorem EntriesSettled.keysFound
    (settled : EntriesSettled order config (entriesAfter order hashOrder config kernel))
    (ordinary : Ordinary config kernel) (wellFormed : kernel.WellFormed)
    (distinct : config.DistinctKeys) : KeysFound order config kernel := by
  have found : ∀ declared ∈ config.tables, ∀ rule ∈ declared.rules,
      ∀ label, rule.label = some label → kernel.labelled label ≤ 1 ∧
          (kernel.labelled label ≠ 0 → ¬ Lost config kernel label.owner (.chain label.chain)) ∧
          (¬ InForce order kernel declared rule → rule.sentLabel = some label) := by
    intro declared declaredMember rule ruleMember label isLabel
    have member : rule ∈ config.rules :=
      NftablesConfig.mem_rules.mpr ⟨declared, declaredMember, ruleMember⟩
    obtain ⟨isOwner, isChain, _⟩ := DeclaredRule.label_eq_some.mp isLabel
    refine ordinary.found wellFormed distinct declaredMember
      ruleMember isLabel (settled.labelledOnce rule member label isLabel)
      (settled.bodies rule member label isLabel) ?_
    intro entry entryMember other isOther sameOwner sameChain
    have sameKey : declared.key = other.owner := by
      rw [← owner_of_mem ruleMember, isOwner, sameOwner]
    obtain ⟨otherRule, otherMember, otherChain, otherKey⟩ :=
      settled.kept entry entryMember other isOther declared declaredMember
        sameKey (Or.inl ⟨rule, ruleMember, isChain.trans sameChain.symm⟩)
    exact ⟨otherRule, NftablesConfig.mem_rules.mpr ⟨declared, declaredMember, otherMember⟩,
      DeclaredRule.label_eq_some.mpr
        ⟨(owner_of_mem otherMember).trans sameKey, otherChain, otherKey⟩⟩
  refine ⟨?_, ?_, ?_, ?_, ?_⟩
  · intro declared declaredMember rule ruleMember labelled notInForce
    obtain ⟨label, isLabel⟩ := Option.ne_none_iff_exists'.mp labelled
    rw [isLabel]
    exact (found declared declaredMember rule ruleMember label isLabel).2.2 notInForce
  · intro rule member label isLabel
    obtain ⟨declared, declaredMember, ruleMember⟩ := NftablesConfig.mem_rules.mp member
    exact (found declared declaredMember rule ruleMember label isLabel).1
  · intro rule member label isLabel
    obtain ⟨declared, declaredMember, ruleMember⟩ := NftablesConfig.mem_rules.mp member
    exact (found declared declaredMember rule ruleMember label isLabel).2.1
  · intro rule member label isLabel
    have once := settled.labelledOnce rule member label isLabel
    obtain ⟨entry, entryMember, isEntry⟩ :=
      countP_pos_iff.mp (Nat.lt_of_lt_of_eq Nat.one_pos once.symm)
    exact settled.kept entry entryMember label (of_decide_eq_true isEntry)
  · intro rule member unlabelled label isSent declared declaredMember sameKey touches
    have isAdded : rule ∈ (diff order hashOrder config kernel).rulesToAdd := by
      obtain ⟨owner, ownerMember, ruleMember⟩ := NftablesConfig.mem_rules.mp member
      rw [mem_rulesToAdd_iff wellFormed]
      refine ⟨owner, ownerMember, ruleMember, ?_⟩
      intro other isOther
      rw [unlabelled] at isOther
      cases isOther
    obtain ⟨otherRule, otherMember, otherChain, otherKey⟩ :=
      settled.kept (rule.sentEntry order)
        (mem_append_right _ (mem_map_of_mem isAdded)) label isSent
        declared declaredMember sameKey touches
    have isLabel := ordinary.noImpostor rule member label isSent ⟨otherRule,
      NftablesConfig.mem_rules.mpr ⟨declared, declaredMember, otherMember⟩,
      DeclaredRule.label_eq_some.mpr
        ⟨(owner_of_mem otherMember).trans sameKey, otherChain, otherKey⟩⟩
    rw [unlabelled] at isLabel
    cases isLabel

variable (order config kernel)

theorem holdsTables_commit : HoldsTables config
      (kernel.commit ((diff order hashOrder config kernel).batch order)) := by
  have each : ∀ state, HoldsTables config state → ∀ operation ∈
        (diff order hashOrder config kernel).objectAdditions ++
          (diff order hashOrder config kernel).ruleAdditions order ++
          (diff order hashOrder config kernel).flowtableAdditions,
        HoldsTables config (state.effect operation) := by
    intro state holds operation member
    refine @HoldsTables.effect order hashOrder _ kernel _ _ holds ?_
    rw [NftablesDiff.batch_eq]
    simp only [mem_append, List.append_assoc] at member ⊢
    tauto
  rw [NftablesDiff.batch_eq, List.append_assoc, List.append_assoc,
    commit, foldl_append, ← List.append_assoc]
  exact foldl_invariant each (holdsTables_afterCreations)

theorem keysSettled_commit_iff (nextOrder : HashOrder) (wellFormed : kernel.WellFormed)
    (finds : Along effect Ruleset.FindsPosition kernel
      ((diff order hashOrder config kernel).batch order)) :
    KeysSettled order nextOrder config
        (kernel.commit ((diff order hashOrder config kernel).batch order)) ↔
      EntriesSettled order config (entriesAfter order hashOrder config kernel) := by
  rw [keysSettled_iff order nextOrder config _ (holdsTables_commit order hashOrder config kernel)]
  have entries := (entries_commit wellFormed finds).1
  exact ⟨fun settled => settled.of_perm entries, fun settled => settled.of_perm entries.symm⟩

/-- The diff after an apply leaves the keyed rules alone, and each declared key
labels one rule, if each declared key comes back once; without detours, only
then. -/
theorem apply_idempotent_iff (nextOrder : HashOrder) (wellFormed : kernel.WellFormed)
    (distinct : config.DistinctKeys) {operations : List BatchOp}
    (applied : (diff order hashOrder config kernel).apply order = .ok operations)
    (finds : Along effect Ruleset.FindsPosition kernel operations) :
    (KeysFound order config kernel →
        KeysSettled order nextOrder config (kernel.commit operations)) ∧
      (Ordinary config kernel → KeysSettled order nextOrder config (kernel.commit operations) →
          KeysFound order config kernel) := by
  obtain ⟨_, rfl⟩ := (NftablesDiff.apply_eq_ok order _ _).mp applied
  rw [keysSettled_commit_iff order hashOrder config kernel nextOrder wellFormed finds]
  exact ⟨fun found => found.entriesSettled hashOrder wellFormed distinct,
    fun ordinary settled => settled.keysFound hashOrder ordinary wellFormed distinct⟩

end Idempotence

/-- A base chain with one rule that accepts under a key. -/
def accepting (key : String) : NftablesConfig :=
  NftablesConfig.new.table "filter" .inet fun declared =>
    (declared.chain { DeclaredChain.new "input" with hook := some .input }).ruleKeyed
        "input" key fun rule => { rule with exprs := [.verdict .accept] }

def acceptingLabel (key : String) : Label where
  owner := (.inet, "filter")
  chain := "input"
  key := key

variable (key : String)

theorem accepting_distinctKeys : (accepting key).DistinctKeys :=
  nodup_singleton (acceptingLabel key)

theorem accepting_applied :
    (diff .little .insertion (accepting key) bareKernel).apply .little =
        .ok ((diff .little .insertion (accepting key) bareKernel).batch .little) ∧
      Along effect Ruleset.FindsPosition bareKernel
        ((diff .little .insertion (accepting key) bareKernel).batch .little) := by
  refine ⟨(NftablesDiff.apply_eq_ok .little _ _).mpr ⟨?_, rfl⟩,
    @along_findsPosition .little .insertion _ _ bareKernel_wellFormed ?_ _⟩
  · intro entry member
    have names : ValidName "filter" ∧ ValidName "input" := by decide
    cases mem_singleton.mp member
    exact ⟨names.1, names.2⟩
  · intro rule member
    cases mem_singleton.mp member
    rfl

theorem accepting_keysFound {key : String} (trips : RoundTrips key) :
    KeysFound .little (accepting key) bareKernel := by
  have onlyRule : ∀ rule ∈ (accepting key).rules, rule.sentLabel = rule.label ∧
        rule.label = some (acceptingLabel key) := by
    intro rule member
    cases mem_singleton.mp member
    exact ⟨sentLabel_of_roundTrips rfl trips rfl rfl rfl, rfl⟩
  have noRules : ∀ label, bareKernel.labelled label = 0 := fun _ => rfl
  refine ⟨?_, ?_, ?_, ?_, ?_⟩
  · intro declared declaredMember rule ruleMember _ _
    exact (onlyRule rule (NftablesConfig.mem_rules.mpr ⟨declared, declaredMember, ruleMember⟩)).1
  · intro rule member label _
    rw [noRules]
    exact Nat.zero_le _
  · intro rule member label _ held
    exact absurd (noRules label) held
  · intro rule member label isLabel declared declaredMember _ _
    cases mem_singleton.mp member
    cases isLabel
    cases mem_singleton.mp declaredMember
    exact ⟨_, mem_singleton_self _, rfl, rfl⟩
  · intro rule member unlabelled
    rw [(onlyRule rule member).2] at unlabelled
    cases unlabelled

theorem accepting_legal : Along effect Ruleset.Legal bareKernel
      ((diff .little .insertion (accepting key) bareKernel).batch .little) := by
  rw [@along_batch .little .insertion _ _ bareKernel_wellFormed]
  · refine ⟨⟨?_, ?_, ?_⟩, ?_⟩
    · exact fun _ member => absurd member not_mem_nil
    · exact fun _ member => absurd member not_mem_nil
    · exact fun _ member => absurd member not_mem_nil
    · intro declared declaredMember rule ruleMember _ reference isReference
      cases mem_singleton.mp declaredMember
      cases mem_singleton.mp ruleMember
      cases mem_singleton.mp isReference
      rintro ⟨_, _, member, _, undeclared⟩
      cases mem_singleton.mp member
      exact absurd ⟨_, mem_singleton_self _, rfl⟩ undeclared
  · intro declared declaredMember rule ruleMember
    cases mem_singleton.mp declaredMember
    cases mem_singleton.mp ruleMember
    refine ⟨rfl, ⟨_, mem_singleton_self _, rfl⟩, ?_⟩
    intro reference isReference
    cases isReference

theorem accepting_not_settled {key : String}
    (hidden : (encodeNlinkComment key).bind parseNlinkComment = none) :
    ¬ KeysSettled .little .insertion (accepting key)
      (bareKernel.commit ((diff .little .insertion (accepting key) bareKernel).batch .little)) := by
  rw [keysSettled_commit_iff .little .insertion _ _ .insertion
    bareKernel_wellFormed (accepting_applied key).2]
  intro settled
  have ordinary : Ordinary (accepting key) bareKernel := by
    refine ⟨?_, ?_, ?_⟩
    · intro rule member _
      cases mem_singleton.mp member
      rfl
    · rintro rule member label _ ⟨other, otherMember, otherLabel⟩
      cases mem_singleton.mp member
      cases mem_singleton.mp otherMember
      exact otherLabel
    · intro rule member label _ _
      exact Nat.zero_le _
  have found := settled.keysFound .insertion ordinary bareKernel_wellFormed
    (accepting_distinctKeys key)
  have sent := found.sent _ (mem_singleton_self _) _
    (mem_singleton_self _) (Option.some_ne_none _) (by
      rintro ⟨_, _, _, isFound, _⟩
      cases (kernelByKey_eq_some isFound).1)
  have isRead : ((encodeNlinkComment key).bind parseNlinkComment).map
      (Label.mk (.inet, "filter") "input") = some (acceptingLabel key) := sent
  rw [hidden] at isRead
  cases isRead

/-- A short key is found again. -/
theorem apply_idempotent_iff_short : KeysSettled .little .insertion (accepting "ssh")
      (bareKernel.commit
        ((diff .little .insertion (accepting "ssh") bareKernel).batch .little)) := by
  have trips : RoundTrips "ssh" := by decide
  obtain ⟨applied, finds⟩ := accepting_applied "ssh"
  exact (apply_idempotent_iff .little .insertion (accepting "ssh") bareKernel
    .insertion bareKernel_wellFormed (accepting_distinctKeys "ssh") applied
    finds).1 (accepting_keysFound trips)

/-- A key that is one byte too long for a comment. -/
def longKey : String :=
  String.ofList (List.replicate 122 'k')

theorem utf8ByteSize_replicate (count : Nat) :
    (String.ofList (List.replicate count 'k')).utf8ByteSize = count := by
  induction count with
  | zero => rfl
  | succ count ih =>
      have one : (String.singleton 'k').utf8ByteSize = 1 := by decide
      rw [replicate_succ, String.ofList_cons, String.utf8ByteSize_append, one, ih, Nat.add_comm]

theorem longKey_readBack : (encodeNlinkComment longKey).bind parseNlinkComment = none := by
  have size : longKey.utf8ByteSize = 122 := utf8ByteSize_replicate 122
  rw [parse_encode, size]
  rfl

/-- Nor does the next diff find the rule, so that it adds it again. -/
theorem longKey_not_settled : bareKernel.WellFormed ∧ (accepting longKey).DistinctKeys ∧
      ∃ operations, (diff .little .insertion (accepting longKey) bareKernel).apply
            .little = .ok operations ∧
          Along effect Ruleset.Legal bareKernel operations ∧
          Along effect Ruleset.FindsPosition bareKernel operations ∧
          ¬ KeysSettled .little .insertion (accepting longKey) (bareKernel.commit operations) := by
  obtain ⟨applied, finds⟩ := accepting_applied longKey
  exact ⟨bareKernel_wellFormed, accepting_distinctKeys longKey, _, applied,
    accepting_legal longKey, finds, accepting_not_settled longKey_readBack⟩

end Nlink.Nftables
