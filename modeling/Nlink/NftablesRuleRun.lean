import Mathlib.Data.List.Perm.Basic
import Nlink.NftablesBatchParts

namespace Nlink.Nftables

open Foundation Netlink List Ruleset

/-!
# What a batch does to the rules

Of the kernel's rules those survive that stay and whose chain is not lost.
Behind them, or where a position says, come the rules that are added; a rule
that is replaced keeps its place.  What a rule is sent with is not what it is
declared with: its body may name another chain or carry a comment of its own,
and not every comment is read back.
-/

/-- A key in a chain of a table. -/
structure Label where
  owner : TableKey
  chain : String
  key : String
  deriving DecidableEq

/-- The label under which a listing shows a rule. -/
def RuleInfo.label (rule : RuleInfo) : Option Label :=
  rule.comment.map (Label.mk rule.owner rule.chain)

/-- What the diff reads of a kernel's rule: its label and its body. -/
structure RuleEntry where
  label : Option Label
  expressionBytes : List UInt8

def RuleInfo.entry (rule : RuleInfo) : RuleEntry where
  label := rule.label
  expressionBytes := rule.expressionBytes

@[simp]
theorem RuleInfo.entry_label (rule : RuleInfo) : rule.entry.label = rule.label :=
  rfl

@[simp]
theorem RuleInfo.entry_expressionBytes (rule : RuleInfo) :
    rule.entry.expressionBytes = rule.expressionBytes :=
  rfl

namespace DeclaredRule

/-- The table in which a rule is declared. -/
def owner (rule : DeclaredRule) : TableKey :=
  (rule.family, rule.table)

def sentOwner (rule : DeclaredRule) : TableKey :=
  (rule.body.family, rule.body.table)

/-- The label under which a rule is declared. -/
def label (rule : DeclaredRule) : Option Label :=
  rule.handleKey.map (Label.mk rule.owner rule.chain)

/-- The comment that a rule is sent with, as it is read back. -/
def readBack (rule : DeclaredRule) : Option String :=
  ((rule.body.comment.or rule.handleKey).bind encodeNlinkComment).bind parseNlinkComment

/-- The label under which a listing shows a rule that has been sent. -/
def sentLabel (rule : DeclaredRule) : Option Label :=
  rule.readBack.map (Label.mk rule.sentOwner rule.body.chain)

/-- What the diff reads of a rule that has been sent. -/
def sentEntry (order : ByteOrder) (rule : DeclaredRule) : RuleEntry where
  label := rule.sentLabel
  expressionBytes := lowerToExpressionBytes order rule.body

end DeclaredRule

theorem sentLabel_of_roundTrips {rule : DeclaredRule} {key : String}
    (isKey : rule.handleKey = some key) (trips : RoundTrips key)
    (noComment : rule.body.comment = none) (sameOwner : rule.sentOwner = rule.owner)
    (sameChain : rule.body.chain = rule.chain) : rule.sentLabel = rule.label := by
  have isRead : rule.readBack = some key := by
    rw [DeclaredRule.readBack, noComment, Option.none_or, isKey,
      Option.bind_some, parse_encode_eq_some_self]
    exact trips
  rw [DeclaredRule.sentLabel, DeclaredRule.label, isRead, isKey, sameOwner, sameChain]

/-- Whether a rule is the one that a replacement is sent for. -/
def hits (handle : Nat) (rule : DeclaredRule) (current : RuleInfo) : Bool :=
  current.isIn rule.sentOwner rule.body.chain ∧ current.handle = handle

section Effects

variable (order : ByteOrder)

theorem appendAttr_aligned (builder : MessageBuilder) (attrType : Nat) (data : List UInt8) :
    4 ∣ (builder.appendAttr order attrType data).buf.length :=
  dvd_length_padding _

theorem ruleExpressions_eq {builder : MessageBuilder} (aligned : 4 ∣ builder.buf.length)
    (rule : Rule) :
    (Transaction.ruleExpressions order builder rule.exprs).getD [] =
      lowerToExpressionBytes order rule := by
  rw [lowerToExpressionBytes_eq, Transaction.ruleExpressions]
  cases exprs : rule.exprs with
  | nil => rfl
  | cons expr rest => exact writeExpressions_payload order builder aligned (expr :: rest)

/-- A message that creates the rule that is sent for a declared one. -/
structure Sends (rule : DeclaredRule) (message : NewRule) : Prop where
  owner : message.owner = rule.sentOwner
  chain : message.chain = rule.body.chain
  userdata : message.userdata = (rule.body.comment.or rule.handleKey).bind encodeNlinkComment
  expressions : message.expressions.getD [] = lowerToExpressionBytes order rule.body

theorem Sends.entry_create {rule : DeclaredRule} {message : NewRule}
    (sends : Sends order rule message) (handle : Nat) :
    (message.create handle).entry = rule.sentEntry order := by
  have owner : (message.create handle).owner = rule.sentOwner := sends.owner
  have chain : (message.create handle).chain = rule.body.chain := sends.chain
  have comment : (message.create handle).comment = rule.readBack := by
    rw [RuleInfo.comment, DeclaredRule.readBack, ← sends.userdata]
    rfl
  rw [RuleInfo.entry, DeclaredRule.sentEntry, RuleInfo.label,
    DeclaredRule.sentLabel, owner, chain, comment, ← sends.expressions]
  rfl

theorem addRule_sends (rule : DeclaredRule) :
    ∃ message, Transaction.addRule order (sentBody rule) = .newRule message ∧
      Sends order rule message ∧ message.position = rule.body.position ∧
        hasFlag message.flags NLM_F_REPLACE = false ∧
        hasFlag message.flags NLM_F_APPEND = true := by
  have noReplace : hasFlag (NLM_F_REQUEST ||| NLM_F_CREATE ||| NLM_F_APPEND)
        NLM_F_REPLACE = false := by
    decide
  have append : hasFlag (NLM_F_REQUEST ||| NLM_F_CREATE ||| NLM_F_APPEND) NLM_F_APPEND = true := by
    decide
  refine ⟨_, rfl, ⟨?_, ?_, ?_, ?_⟩, ?_, noReplace, append⟩
  · rw [sentBody_eq]
    rfl
  · rw [sentBody_eq]
  · rw [sentBody_eq]
  · rw [sentBody_eq]
    refine ruleExpressions_eq order ?_ rule.body
    cases rule.body.position <;> exact appendAttr_aligned ..
  · rw [sentBody_eq]

theorem replaceRule_sends (rule : DeclaredRule) (handle : Nat) : ∃ message,
      Transaction.replaceRule order (sentBody rule) handle = .newRule message ∧
        Sends order rule message ∧ message.handle = some handle ∧
        hasFlag message.flags NLM_F_REPLACE = true := by
  have replace : hasFlag (NLM_F_REQUEST ||| NLM_F_REPLACE) NLM_F_REPLACE = true := by decide
  refine ⟨_, rfl, ⟨?_, ?_, ?_, ?_⟩, rfl, replace⟩
  · rw [sentBody_eq]
    rfl
  · rw [sentBody_eq]
  · rw [sentBody_eq]
  · rw [sentBody_eq]
    exact ruleExpressions_eq order (appendAttr_aligned ..) rule.body

theorem effect_addRule (ruleset : Ruleset) (rule : DeclaredRule) : ∃ fresh : RuleInfo,
      fresh.entry = rule.sentEntry order ∧ fresh.handle = ruleset.nextHandle ∧
        (ruleset.effect (Transaction.addRule order (sentBody rule))).rules =
          insertRule ruleset.rules rule.sentOwner rule.body.position fresh ∧
        (ruleset.effect (Transaction.addRule order (sentBody rule))).nextHandle =
          ruleset.nextHandle + 1 := by
  obtain ⟨message, isMessage, sends, position, noReplace, append⟩ := addRule_sends order rule
  rw [isMessage, ← sends.owner, ← position]
  refine ⟨_, sends.entry_create order ruleset.nextHandle, rfl, ?_, rfl⟩
  simp only [effect, newRule, noReplace, append,
    Bool.false_eq_true, if_false, if_true]

theorem effect_replaceRule (ruleset : Ruleset) (rule : DeclaredRule) (handle : Nat) :
    ∃ fresh : RuleInfo, fresh.entry = rule.sentEntry order ∧ fresh.handle = ruleset.nextHandle ∧
        (ruleset.effect (Transaction.replaceRule order (sentBody rule) handle)).rules =
          (ruleset.rules.map fun current => if hits handle rule current then fresh else current) ∧
        (ruleset.effect (Transaction.replaceRule order (sentBody rule) handle)).nextHandle =
          ruleset.nextHandle + 1 := by
  obtain ⟨message, isMessage, sends, isHandle, replace⟩ := replaceRule_sends order rule handle
  rw [isMessage]
  refine ⟨_, sends.entry_create order ruleset.nextHandle, rfl, ?_, rfl⟩
  simp only [effect, newRule, replace, if_true, hits,
    sends.owner, sends.chain, isHandle, Option.some.injEq, decide_eq_true_eq]

end Effects

/-! ### Additions -/

/-- An addition finds the rule behind which its position puts it. -/
def Ruleset.FindsPosition (ruleset : Ruleset) : BatchOp → Prop
  | .newRule message =>
      ∀ handle, message.position = some handle → ∃ rule ∈ ruleset.rules,
          rule.owner = message.owner ∧ rule.handle = handle
  | _ => True

/-- Handles are unique in a table, and the next one is new. -/
structure Ruleset.FreshHandles (ruleset : Ruleset) : Prop where
  distinct : (ruleset.rules.map fun rule => (rule.owner, rule.handle)).Nodup
  used : ∀ rule ∈ ruleset.rules, rule.handle < ruleset.nextHandle

theorem flatMap_insert_perm (isMatch : α → Bool) (fresh : α) (items : List α) :
    (items.flatMap fun item => if isMatch item then [item, fresh] else [item]).Perm
      (items ++ List.replicate (items.countP isMatch) fresh) := by
  induction items with
  | nil => simp
  | cons item items ih =>
      rw [flatMap_cons, cons_append]
      by_cases isHere : isMatch item = true
      · rw [if_pos isHere, countP_cons_of_pos isHere, replicate_succ]
        refine List.Perm.cons item ?_
        exact (ih.cons fresh).trans perm_middle.symm
      · rw [if_neg isHere, countP_cons_of_neg isHere]
        exact ih.cons item

theorem insertRule_perm {rules : List RuleInfo}
    (distinct : (rules.map fun rule => (rule.owner, rule.handle)).Nodup) {owner : TableKey}
    {position : Option Nat}
    (found : ∀ handle, position = some handle →
      ∃ rule ∈ rules, rule.owner = owner ∧ rule.handle = handle)
    (fresh : RuleInfo) :
    (insertRule rules owner position fresh).Perm (rules ++ [fresh]) := by
  cases position with
  | none => exact List.Perm.refl _
  | some handle =>
      obtain ⟨rule, member, isOwner, isHandle⟩ := found handle rfl
      have isThere : (rules.any fun rule =>
          rule.owner = owner ∧ rule.handle = handle) = true :=
        any_eq_true.mpr ⟨rule, member, by simp [isOwner, isHandle]⟩
      have once : (rules.countP fun rule =>
          rule.owner = owner ∧ rule.handle = handle) = 1 := by
        have isName : (owner, handle) ∈ rules.map fun rule => (rule.owner, rule.handle) :=
          mem_map.mpr ⟨rule, member, Prod.ext isOwner isHandle⟩
        rw [← count_eq_one_of_mem distinct isName, List.count, countP_map]
        refine countP_congr fun other _ => ?_
        simp [Prod.ext_iff]
      have inserted := flatMap_insert_perm
        (fun rule : RuleInfo => rule.owner = owner ∧ rule.handle = handle)
        fresh rules
      rw [once] at inserted
      rw [insertRule, if_pos isThere]
      simpa using inserted

section Run

variable (order : ByteOrder)

/-- The additions of a batch add one rule each, with new handles. -/
theorem rules_foldl_additions (rules : List DeclaredRule) {start : Ruleset}
    (freshHandles : start.FreshHandles)
    (finds : Along effect Ruleset.FindsPosition start
      (rules.map fun rule => Transaction.addRule order (sentBody rule))) :
    ∃ made : List RuleInfo, made.map RuleInfo.entry = rules.map (DeclaredRule.sentEntry order) ∧
        (∀ rule ∈ made, start.nextHandle ≤ rule.handle) ∧
        start.nextHandle ≤
          ((rules.map fun rule =>
            Transaction.addRule order (sentBody rule)).foldl effect start).nextHandle ∧
        ((rules.map fun rule =>
          Transaction.addRule order (sentBody rule)).foldl effect
            start).rules.Perm (start.rules ++ made) ∧
        ((∀ rule ∈ rules, rule.body.position = none) →
          ((rules.map fun rule =>
            Transaction.addRule order (sentBody rule)).foldl effect
              start).rules = start.rules ++ made) := by
  induction rules generalizing start with
  | nil => exact ⟨[], rfl, by simp, Nat.le_refl _, by simp, by simp⟩
  | cons rule rules ih =>
      obtain ⟨fresh, isEntry, isHandle, inserted, next⟩ := effect_addRule order start rule
      obtain ⟨message, isMessage, sends, position, _, _⟩ := addRule_sends order rule
      rw [map_cons, along_cons] at finds
      have found : ∀ handle, rule.body.position = some handle → ∃ other ∈ start.rules,
            other.owner = rule.sentOwner ∧ other.handle = handle := by
        have findsFirst := finds.1
        rw [isMessage, Ruleset.FindsPosition, sends.owner, position] at findsFirst
        exact findsFirst
      have isAdded := insertRule_perm freshHandles.distinct found fresh
      rw [← inserted] at isAdded
      have freshAfter : (start.effect
          (Transaction.addRule order (sentBody rule))).FreshHandles := by
        refine ⟨?_, ?_⟩
        · rw [(isAdded.map _).nodup_iff, map_append, nodup_append_comm]
          refine nodup_cons.mpr ⟨?_, freshHandles.distinct⟩
          rintro sameName
          obtain ⟨other, member, same⟩ := mem_map.mp sameName
          have used := freshHandles.used other member
          rw [(Prod.mk.inj same).2, isHandle] at used
          exact Nat.lt_irrefl _ used
        · intro other member
          rw [isAdded.mem_iff, mem_append, mem_singleton] at member
          rw [next]
          rcases member with member | rfl
          · exact Nat.lt_succ_of_lt (freshHandles.used other member)
          · rw [isHandle]
            exact Nat.lt_succ_self _
      obtain ⟨made, entries, handles, grown, rest, inOrder⟩ := ih freshAfter finds.2
      rw [next] at handles grown
      refine ⟨fresh :: made, ?_, ?_, Nat.le_of_succ_le grown, ?_, ?_⟩
      · rw [map_cons, map_cons, isEntry, entries]
      · intro other member
        rcases mem_cons.mp member with rfl | member
        · exact isHandle.ge
        · exact Nat.le_of_succ_le (handles other member)
      · refine rest.trans ((isAdded.append_right made).trans ?_)
        rw [List.append_assoc]
        rfl
      · intro noPositions
        rw [forall_mem_cons] at noPositions
        rw [map_cons, foldl_cons, inOrder noPositions.2, inserted,
          noPositions.1, insertRule, List.append_assoc]
        rfl

/-! ### Replacements -/

/-- What the diff reads of a rule after the replacements of a diff. -/
def rewrittenEntry (replacements : List (String × Family × String × Nat × DeclaredRule))
    (current : RuleInfo) : RuleEntry :=
  match replacements.find? fun entry => hits entry.2.2.2.1 entry.2.2.2.2 current
  with
  | some entry => entry.2.2.2.2.sentEntry order
  | none => current.entry

theorem rewrittenEntry_of_not_hit
    {replacements : List (String × Family × String × Nat × DeclaredRule)} {current : RuleInfo}
    (noHit : ∀ entry ∈ replacements, hits entry.2.2.2.1 entry.2.2.2.2 current = false) :
    rewrittenEntry order replacements current = current.entry := by
  have none : (replacements.find? fun entry =>
      hits entry.2.2.2.1 entry.2.2.2.2 current) = none := by
    rw [find?_eq_none]
    intro entry member
    rw [noHit entry member]
    exact Bool.false_ne_true
  rw [rewrittenEntry, none]

theorem rewrittenEntry_of_fresh
    {replacements : List (String × Family × String × Nat × DeclaredRule)} {nextHandle : Nat}
    (used : ∀ entry ∈ replacements, entry.2.2.2.1 < nextHandle) {current : RuleInfo}
    (isFresh : nextHandle ≤ current.handle) :
    rewrittenEntry order replacements current = current.entry := by
  refine rewrittenEntry_of_not_hit order fun entry member => ?_
  have older := used entry member
  rw [hits, decide_eq_false_iff_not]
  rintro ⟨_, isHandle⟩
  omega

theorem rules_foldl_replacements
    (replacements : List (String × Family × String × Nat × DeclaredRule)) {nextHandle : Nat}
    (used : ∀ entry ∈ replacements, entry.2.2.2.1 < nextHandle) {start : Ruleset}
    (isNext : nextHandle ≤ start.nextHandle) :
    ((replacements.map fun (_, _, _, handle, rule) =>
        Transaction.replaceRule order (sentBody rule) handle).foldl
          effect start).rules.map RuleInfo.entry =
      start.rules.map (rewrittenEntry order replacements) := by
  induction replacements generalizing start with
  | nil => rfl
  | cons entry replacements ih =>
      obtain ⟨table, family, chain, handle, rule⟩ := entry
      obtain ⟨fresh, isEntry, isHandle, replaced, next⟩ :=
        effect_replaceRule order start rule handle
      rw [forall_mem_cons] at used
      rw [map_cons, foldl_cons, ih used.2 (by rw [next]; omega), replaced, map_map]
      refine map_congr_left fun current _ => ?_
      rw [Function.comp_apply]
      by_cases isHit : hits handle rule current = true
      · have freshEntry : rewrittenEntry order replacements fresh = fresh.entry :=
          rewrittenEntry_of_fresh order used.2 (by rw [isHandle]; exact isNext)
        rw [if_pos isHit, freshEntry, isEntry, rewrittenEntry, find?_cons_of_pos (by exact isHit)]
      · rw [if_neg isHit, rewrittenEntry, rewrittenEntry, find?_cons_of_neg (by exact isHit)]

end Run

/-! ### A whole batch -/

/-- A kernel's rule stays and so does its chain. -/
def Survives (config : NftablesConfig) (kernel : Ruleset) (rule : RuleInfo) : Prop :=
  Stays config rule ∧ ¬ Lost config kernel rule.owner (.chain rule.chain)

instance (config : NftablesConfig) (rule : RuleInfo) : Decidable (Stays config rule) :=
  decidable_of_iff
    (∀ declared ∈ config.tables, declared.key = rule.owner → Touches declared rule.chain →
        ∀ key ∈ rule.comment, DeclaresKey declared rule.chain key)
    Iff.rfl

instance (config : NftablesConfig) (kernel : Ruleset) (owner : TableKey)
    (reference : Reference) : Decidable (Lost config kernel owner reference) :=
  inferInstanceAs (Decidable (_ ∧ ∃ declared ∈ config.tables,
    declared.key = owner ∧ ¬ DeclaresObject declared reference))

instance (config : NftablesConfig) (kernel : Ruleset) (rule : RuleInfo) :
    Decidable (Survives config kernel rule) :=
  inferInstanceAs (Decidable (_ ∧ _))

/-- The kernel's rules that survive the deletions. -/
def survivors (config : NftablesConfig) (kernel : Ruleset) : List RuleInfo :=
  kernel.rules.filter fun rule => Survives config kernel rule

section Batch

variable {order : ByteOrder}
variable {hashOrder : HashOrder}
variable {config : NftablesConfig}
variable {kernel : Ruleset}

theorem nextHandle_effect (ruleset : Ruleset) {operation : BatchOp}
    (noRule : operation.isNewRule = false) :
    (ruleset.effect operation).nextHandle = ruleset.nextHandle := by
  cases operation with
  | newRule message => cases noRule
  | _ => rfl

theorem isNewRule_beforeRules (wellFormed : kernel.WellFormed) {operation : BatchOp}
    (member : operation ∈ (diff order hashOrder config kernel).deletions ++
        ((diff order hashOrder config kernel).tableCreations ++
          (diff order hashOrder config kernel).objectAdditions)) : operation.isNewRule = false := by
  rcases mem_append.mp member with member | member
  · rcases mem_deletions wellFormed member with
      ⟨_, _, _, _, rfl⟩ | ⟨_, _, _, _, rfl⟩ | ⟨_, reference, rfl⟩
    · rfl
    · rfl
    · cases reference <;> rfl
  · rcases mem_objectAdditions member with ⟨_, _, _, _, rfl⟩ |
      ⟨_, _, _, _, _, rfl⟩ | ⟨_, _, _, _, rfl⟩ | ⟨_, _, _, _, rfl⟩ <;>
    rfl

theorem drops_beforeRules (wellFormed : kernel.WellFormed) {rule : RuleInfo}
    (member : rule ∈ kernel.rules) :
    (∀ operation ∈ (diff order hashOrder config kernel).deletions ++
        ((diff order hashOrder config kernel).tableCreations ++
          (diff order hashOrder config kernel).objectAdditions),
      operation.drops rule = false) ↔
      Survives config kernel rule := by
  have others := @element_and_set_deletions order hashOrder config kernel wellFormed
  have objects : ∀ operation ∈ (diff order hashOrder config kernel).flowtableDeletions ++
        ((diff order hashOrder config kernel).tableCreations ++
          (diff order hashOrder config kernel).objectAdditions),
      operation.drops rule = false := by
    intro operation isObject
    rcases mem_append.mp isObject with isObject | isObject
    · obtain ⟨_, _, _, rfl⟩ := (mem_flowtableDeletions wellFormed).mp isObject
      rfl
    · rcases mem_objectAdditions isObject with ⟨_, _, _, _, rfl⟩ |
        ⟨_, _, _, _, _, rfl⟩ | ⟨_, _, _, _, rfl⟩ | ⟨_, _, _, _, rfl⟩ <;>
      rfl
  rw [forall_mem_append] at others objects
  simp only [deletions_diff, forall_mem_append] at objects ⊢
  rw [ruleDeletions_drops wellFormed member, chainDeletions_diff wellFormed, chain_drops,
    mem_lostChains]
  constructor
  · rintro ⟨⟨⟨⟨⟨stays, _⟩, _⟩, notLost⟩, _⟩, _⟩
    exact ⟨stays, notLost⟩
  · rintro ⟨stays, notLost⟩
    exact ⟨⟨⟨⟨⟨stays, fun operation isRemoval =>
        (others.1 operation isRemoval).2 rule⟩, fun operation isDeletion =>
        (others.2 operation isDeletion).2 rule⟩, notLost⟩, objects.1⟩,
      objects.2⟩

theorem rules_beforeRules (wellFormed : kernel.WellFormed) :
    (((diff order hashOrder config kernel).deletions ++
        ((diff order hashOrder config kernel).tableCreations ++
          (diff order hashOrder config kernel).objectAdditions)).foldl
        effect kernel).rules = survivors config kernel ∧
      (((diff order hashOrder config kernel).deletions ++
        ((diff order hashOrder config kernel).tableCreations ++
          (diff order hashOrder config kernel).objectAdditions)).foldl
        effect kernel).nextHandle = kernel.nextHandle := by
  refine ⟨?_, ?_⟩
  · have commit := rules_commit kernel
      fun operation member =>
        @isNewRule_beforeRules order hashOrder config kernel wellFormed _ member
    rw [Ruleset.commit] at commit
    rw [commit, survivors]
    refine filter_congr fun rule member => ?_
    have drops := @drops_beforeRules order hashOrder config kernel wellFormed _ member
    rw [Bool.eq_iff_iff, all_eq_true, decide_eq_true_eq, ← drops]
    simp
  · exact foldl_unchanged effect nextHandle
      (fun state operation member => nextHandle_effect state
        (isNewRule_beforeRules wellFormed member)) kernel

/-- A rule that is replaced is held by the kernel under its key. -/
theorem replaced_held {entry : String × Family × String × Nat × DeclaredRule}
    (member : entry ∈ (diff order hashOrder config kernel).rulesToReplace) :
    ∃ declared ∈ config.tables, entry.2.2.2.2 ∈ declared.rules ∧
      ∃ key current, entry.2.2.2.2.handleKey = some key ∧ kernelByKey
            (kernel.rulesIn declared.key entry.2.2.2.2.chain) key =
          some current ∧
        bodyDiffers order entry.2.2.2.2.body current = true ∧
        current.handle = entry.2.2.2.1 := by
  obtain ⟨table, family, chain, handle, rule⟩ := entry
  rw [diff, mem_rulesToReplace] at member
  obtain ⟨declared, declaredMember, _, _, ruleMember, rfl, isReplace⟩ := member
  exact ⟨declared, declaredMember, ruleMember, (ruleAction_eq_replace).mp isReplace⟩

variable (order hashOrder config kernel)

/-- What a diff leads to: the survivors, as far as they are not replaced, and
behind them the rules that are added. -/
def entriesAfter : List RuleEntry :=
  (survivors config kernel).map
      (rewrittenEntry order (diff order hashOrder config kernel).rulesToReplace) ++
    (diff order hashOrder config kernel).rulesToAdd.map (DeclaredRule.sentEntry order)

variable {order hashOrder config kernel}

/-- What is read of the rules after a batch whose additions find their
positions; without positions, the order is that of the diff. -/
theorem entries_commit (wellFormed : kernel.WellFormed)
    (finds : Along effect Ruleset.FindsPosition kernel
      ((diff order hashOrder config kernel).batch order)) :
    ((kernel.commit ((diff order hashOrder config kernel).batch order)).rules.map
          RuleInfo.entry).Perm
      (entriesAfter order hashOrder config kernel) ∧
      ((∀ rule ∈ (diff order hashOrder config kernel).rulesToAdd, rule.body.position = none) →
        (kernel.commit ((diff order hashOrder config kernel).batch order)).rules.map
              RuleInfo.entry =
          entriesAfter order hashOrder config kernel) := by
  have before := @rules_beforeRules order hashOrder config kernel wellFormed
  have used : ∀ entry ∈ (diff order hashOrder config kernel).rulesToReplace,
      entry.2.2.2.1 < kernel.nextHandle := by
    intro entry member
    obtain ⟨_, _, _, key, current, _, found, _, isHandle⟩ := replaced_held member
    rw [← isHandle]
    exact wellFormed.handlesUsed current (mem_rulesIn.mp (kernelByKey_eq_some found).1).1
  have fresh : (((diff order hashOrder config kernel).deletions ++
      ((diff order hashOrder config kernel).tableCreations ++
        (diff order hashOrder config kernel).objectAdditions)).foldl
      effect kernel).FreshHandles := by
    refine ⟨?_, ?_⟩
    · rw [before.1, survivors]
      exact wellFormed.handlesDistinct.sublist (filter_sublist.map _)
    · rw [before.1, before.2]
      intro rule member
      exact wellFormed.handlesUsed rule (mem_filter.mp member).1
  rw [NftablesDiff.batch_eq, NftablesDiff.ruleAdditions,
    List.append_assoc _ _ (NftablesDiff.objectAdditions _)] at finds ⊢
  rw [along_append, along_append] at finds
  obtain ⟨made, entries, handles, grown, isAdded, inOrder⟩ :=
    rules_foldl_additions order _ fresh ((along_append ..).mp finds.1.2).1
  rw [before.1] at isAdded inOrder
  rw [before.2] at handles grown
  have madeEntries : made.map
      (rewrittenEntry order (diff order hashOrder config kernel).rulesToReplace) =
      (diff order hashOrder config kernel).rulesToAdd.map (DeclaredRule.sentEntry order) := by
    rw [← entries]
    exact map_congr_left fun rule member => rewrittenEntry_of_fresh order used (handles rule member)
  have replaced := rules_foldl_replacements order _ used grown
  have afterRules : ∀ start : Ruleset,
      (((diff order hashOrder config kernel).flowtableAdditions).foldl
        effect start).rules = start.rules := by
    refine foldl_unchanged effect rules ?_
    intro state operation member
    obtain ⟨flowtable, _, rfl⟩ := mem_map.mp member
    rfl
  rw [commit, foldl_append, foldl_append, foldl_append,
    afterRules, replaced, entriesAfter, ← madeEntries, ← map_append]
  refine ⟨isAdded.map _, fun noPositions => ?_⟩
  rw [inOrder noPositions]

/-- Without positions every rule finds its place. -/
theorem along_findsPosition (wellFormed : kernel.WellFormed)
    (noPositions : ∀ rule ∈ (diff order hashOrder config kernel).rulesToAdd,
      rule.body.position = none)
    (start : Ruleset) :
    Along effect Ruleset.FindsPosition start
      ((diff order hashOrder config kernel).batch order) := by
  refine along_of_always (fun state operation member => ?_) start
  cases operation with
  | newRule message =>
      have noPosition : message.position = none := by
        rw [NftablesDiff.batch_eq, mem_append, mem_append, List.append_assoc] at member
        rcases member with (isObject | isRule) | isFlowtable
        · cases isNewRule_beforeRules wellFormed isObject
        · rcases mem_append.mp isRule with isAdded | isReplaced
          · obtain ⟨rule, ruleMember, isMessage⟩ := mem_map.mp isAdded
            obtain ⟨sent, isSent, _, position, _⟩ := addRule_sends order rule
            rw [isSent, BatchOp.newRule.injEq] at isMessage
            rw [← isMessage, position, noPositions rule ruleMember]
          · obtain ⟨entry, _, isMessage⟩ := mem_map.mp isReplaced
            cases isMessage
            rfl
        · obtain ⟨flowtable, _, isMessage⟩ := mem_map.mp isFlowtable
          cases isMessage
      intro handle isPosition
      rw [noPosition] at isPosition
      cases isPosition
  | _ => trivial

end Batch

end Nlink.Nftables
