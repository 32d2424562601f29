/-
  ShiftReduce.Proofs.Grammar.Items
  ────────────────────────────────
  **WHICH ITEMS A TABLE HOLDS.**

  Every place of every right-hand side has one item (`itemAt`), and a table
  holds these and no others.

  Main statements: `mem_items`, what an item calls for (`action_itemAt_eq_*`),
  and `acceptsExplicitly_iff`: a table has an accepting item if and only if
  some rule ends with an end-marker.
-/
import ShiftReduce.DecisionTable

namespace ShiftReduce

variable {S : Type} [DecidableEq S] [GrammarSymbol S]

/-! ## §1. The item of a place. -/

omit [DecidableEq S] in
/-- The symbol in the last place of a rule is the one that the rule may terminate with. -/
theorem Rule.isTerminating_of_last {rule : Rule S} {position : Nat} {symbol : S}
    (h : rule.rhs[position]? = some symbol) (last : rule.rhs.length ≤ position + 1) :
    rule.isTerminating = GrammarSymbol.isEndMarker symbol := by
  have within := (List.getElem?_eq_some_iff.1 h).1
  have here : rule.rhs.getLast? = some symbol := by
    rw [List.getLast?_eq_getElem?, ← h]
    congr 1
    omega
  rw [Rule.isTerminating, here, Option.any_some]

namespace RuleSet

/-- The item of a rule with the dot on the symbol at `position`. -/
def itemAt (rules : RuleSet S) (rule : Rule S) (position : Nat) : Item S :=
  { rule
    position
    action :=
      if position + 1 < rule.rhs.length then .shift
      else if rule.isTerminating then .accept
      else .reduce
    lookaheads := (rule.rhs[position + 1]?.map rules.first).getD ∅ }

@[simp]
theorem rule_itemAt (rules : RuleSet S) (rule : Rule S) (position : Nat) :
    (rules.itemAt rule position).rule = rule := rfl

@[simp]
theorem position_itemAt (rules : RuleSet S) (rule : Rule S) (position : Nat) :
    (rules.itemAt rule position).position = position := rfl

@[simp]
theorem span_itemAt (rules : RuleSet S) (rule : Rule S) (position : Nat) :
    (rules.itemAt rule position).span = position + 1 := rfl

@[simp]
theorem next?_itemAt (rules : RuleSet S) (rule : Rule S) (position : Nat) :
    (rules.itemAt rule position).next? = rule.rhs[position + 1]? := rfl

@[simp]
theorem symbol?_itemAt (rules : RuleSet S) (rule : Rule S) (position : Nat) :
    (rules.itemAt rule position).symbol? = rule.rhs[position]? := rfl

theorem item?_eq_itemAt (rules : RuleSet S) {rule : Rule S} {position : Nat}
    (h : position < rule.rhs.length) :
    rules.item? rule position = some (rules.itemAt rule position) := by
  rw [item?, Item.ofRule?, List.getElem?_eq_getElem h, Option.map_some, Option.map_some]
  by_cases hlast : position + 1 < rule.rhs.length
  · simp only [itemAt, Item.next?, hlast, if_true]
  · have ends := Rule.isTerminating_of_last (List.getElem?_eq_getElem h) (Nat.le_of_not_lt hlast)
    simp only [itemAt, Item.next?, hlast, if_false, ends]

/-! ## §2. What an item calls for. -/

theorem action_itemAt_eq_shift {rules : RuleSet S} {rule : Rule S} {position : Nat} :
    (rules.itemAt rule position).action = .shift ↔ position + 1 < rule.rhs.length := by
  simp only [itemAt]
  split
  · simp [*]
  · split <;> simp [*]

theorem action_itemAt_eq_reduce {rules : RuleSet S} {rule : Rule S} {position : Nat} :
    (rules.itemAt rule position).action = .reduce ↔
      rule.rhs.length ≤ position + 1 ∧ rule.isTerminating = false := by
  simp only [itemAt]
  split
  · next before => exact ⟨fun h => (by cases h), fun h => (by omega)⟩
  · split <;> simp_all

theorem action_itemAt_eq_accept {rules : RuleSet S} {rule : Rule S} {position : Nat} :
    (rules.itemAt rule position).action = .accept ↔
      rule.rhs.length ≤ position + 1 ∧ rule.isTerminating = true := by
  simp only [itemAt]
  split
  · next before => exact ⟨fun h => (by cases h), fun h => (by omega)⟩
  · split <;> simp_all

/-- At the end of a rule the item accepts if the rule ends with an end-marker. -/
theorem isAccept_itemAt (rules : RuleSet S) {rule : Rule S} {position : Nat}
    (last : rule.rhs.length ≤ position + 1) :
    (rules.itemAt rule position).isAccept = rule.isTerminating := by
  cases hterminating : rule.isTerminating with
  | true => exact decide_eq_true (action_itemAt_eq_accept.2 ⟨last, hterminating⟩)
  | false =>
    refine decide_eq_false fun accepts => ?_
    rw [(action_itemAt_eq_accept.1 accepts).2] at hterminating
    cases hterminating

/-- Before the end of a rule the lookaheads are the first terminals of what comes next. -/
theorem lookaheads_itemAt (rules : RuleSet S) {rule : Rule S} {position : Nat} {next : S}
    (h : rule.rhs[position + 1]? = some next) :
    (rules.itemAt rule position).lookaheads = rules.first next := by
  simp only [itemAt, h, Option.map_some, Option.getD_some]

/-! ## §3. The items of a rule set. -/

theorem mem_items {rules : RuleSet S} {item : Item S} :
    item ∈ rules.items ↔
      ∃ rule ∈ rules.toList, ∃ position < rule.rhs.length, item = rules.itemAt rule position := by
  simp only [items, itemsOfRule, List.mem_flatMap, List.mem_filterMap, List.mem_range]
  constructor
  · intro h
    obtain ⟨rule, hrule, position, hposition, hitem⟩ := h
    rw [rules.item?_eq_itemAt hposition] at hitem
    exact ⟨rule, hrule, position, hposition, (Option.some.inj hitem).symm⟩
  · intro h
    obtain ⟨rule, hrule, position, hposition, rfl⟩ := h
    exact ⟨rule, hrule, position, hposition, rules.item?_eq_itemAt hposition⟩

theorem span_of_item? {rules : RuleSet S} {rule : Rule S} {position : Nat} {item : Item S}
    (h : rules.item? rule position = some item) : item.span = position + 1 := by
  obtain ⟨bare, hbare, rfl⟩ := Option.map_eq_some_iff.1 h
  obtain ⟨_, _, rfl⟩ := Option.map_eq_some_iff.1 hbare
  rfl

theorem rule_of_item? {rules : RuleSet S} {rule : Rule S} {position : Nat} {item : Item S}
    (h : rules.item? rule position = some item) : item.rule = rule := by
  obtain ⟨bare, hbare, rfl⟩ := Option.map_eq_some_iff.1 h
  obtain ⟨_, _, rfl⟩ := Option.map_eq_some_iff.1 hbare
  rfl

theorem rule_of_mem_itemsOfRule {rules : RuleSet S} {rule : Rule S} {item : Item S}
    (h : item ∈ rules.itemsOfRule rule) : item.rule = rule := by
  obtain ⟨position, _, hitem⟩ := List.mem_filterMap.1 h
  exact rule_of_item? hitem

/-- The items come rule by rule, and those of a rule from the left to the right. -/
theorem ordered_items (rules : RuleSet S) :
    rules.items.Pairwise fun a b => a.rule.id < b.rule.id ∨ (a.rule = b.rule ∧ a.span < b.span) := by
  unfold items
  refine List.pairwise_flatMap.2 ⟨fun rule _ => ?_, rules.ascending.imp ?_⟩
  · -- The items of one rule have their dots at different places.
    refine List.pairwise_filterMap.2 (List.pairwise_lt_range.imp ?_)
    intro first second before a ha b hb
    have same : a.rule = b.rule := (rule_of_item? ha).trans (rule_of_item? hb).symm
    refine .inr ⟨same, ?_⟩
    rw [span_of_item? ha, span_of_item? hb]
    omega
  · intro one other before a ha b hb
    rw [rule_of_mem_itemsOfRule ha, rule_of_mem_itemsOfRule hb]
    exact .inl before

end RuleSet

namespace DecisionTable

theorem ordered_items (table : DecisionTable S) (symbol : S) :
    (table.items symbol).Pairwise fun a b =>
      a.rule.id < b.rule.id ∨ (a.rule = b.rule ∧ a.span < b.span) := by
  rw [items_eq]
  exact table.rules.ordered_items.filter _

/-- Of two items with the dot at the same place, the one of the rule with the
smaller number comes first. -/
theorem pairwise_items (table : DecisionTable S) (symbol : S) :
    (table.items symbol).Pairwise fun a b => a.span = b.span → a.rule.id < b.rule.id := by
  refine (table.ordered_items symbol).imp ?_
  intro a b before same
  exact before.resolve_right fun h => Nat.ne_of_lt h.2 same

/-- The items of a symbol are those of the places where it stands. -/
theorem mem_items {table : DecisionTable S} {symbol : S} {item : Item S} :
    item ∈ table.items symbol ↔
      ∃ rule ∈ table.rules.toList, ∃ position,
        rule.rhs[position]? = some symbol ∧ item = table.rules.itemAt rule position := by
  rw [items_eq, RuleSet.itemsAt, List.mem_filter, RuleSet.mem_items, decide_eq_true_eq]
  constructor
  · intro h
    obtain ⟨⟨rule, hrule, position, _, rfl⟩, hsymbol⟩ := h
    exact ⟨rule, hrule, position, hsymbol, rfl⟩
  · intro h
    obtain ⟨rule, hrule, position, hsymbol, rfl⟩ := h
    have hposition : position < rule.rhs.length := (List.getElem?_eq_some_iff.1 hsymbol).1
    exact ⟨⟨rule, hrule, position, hposition, rfl⟩, hsymbol⟩

/-- An item whose dot is not on the last symbol of its rule calls for a shift. -/
theorem action_of_next {table : DecisionTable S} {symbol next : S} {item : Item S}
    (mem : item ∈ table.items symbol) (hnext : item.next? = some next) : item.action = .shift := by
  obtain ⟨rule, _, position, _, rfl⟩ := mem_items.1 mem
  exact RuleSet.action_itemAt_eq_shift.2 (List.getElem?_eq_some_iff.1 hnext).1

theorem symbols_eq (table : DecisionTable S) : table.symbols = table.rules.symbols.toList := by
  rw [symbols, table.itemIndex_eq, RuleSet.itemIndex, List.map_map]
  exact List.map_id _

/-- Only symbols of the rules have items. -/
theorem mem_symbols_of_mem_items {table : DecisionTable S} {symbol : S} {item : Item S}
    (h : item ∈ table.items symbol) : symbol ∈ table.symbols := by
  rw [symbols_eq]
  refine Decidable.byContradiction fun unknown => ?_
  rw [items_eq, RuleSet.itemsAt_eq_nil unknown] at h
  cases h

theorem exists_rule_of_start (table : DecisionTable S) :
    ∃ rule ∈ table.rules.toList, rule.lhs = table.start :=
  ⟨_, List.head_mem table.rules.ne_nil, rfl⟩

/-- A table accepts explicitly if and only if some rule ends with an end-marker. -/
theorem acceptsExplicitly_iff {table : DecisionTable S} :
    table.acceptsExplicitly = true ↔ ∃ rule ∈ table.rules.toList, rule.isTerminating = true := by
  rw [table.acceptsExplicitly_eq, RuleSet.acceptsExplicitly, List.any_eq_true]
  constructor
  · intro h
    obtain ⟨item, hitem, haccept⟩ := h
    obtain ⟨rule, hrule, position, _, rfl⟩ := RuleSet.mem_items.1 hitem
    exact ⟨rule, hrule, (RuleSet.action_itemAt_eq_accept.1 (of_decide_eq_true haccept)).2⟩
  · intro h
    obtain ⟨rule, hrule, hterminating⟩ := h
    -- The accepting item is the one with the dot on the end-marker.
    have hpos : 0 < rule.rhs.length := List.length_pos_iff.2 (table.rules.rhs_ne_nil rule hrule)
    refine ⟨table.rules.itemAt rule (rule.rhs.length - 1),
      RuleSet.mem_items.2 ⟨rule, hrule, _, by omega, rfl⟩, ?_⟩
    exact decide_eq_true (RuleSet.action_itemAt_eq_accept.2 ⟨by omega, hterminating⟩)

end DecisionTable

end ShiftReduce
