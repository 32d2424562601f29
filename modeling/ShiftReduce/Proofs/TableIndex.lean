/-
  ShiftReduce.Proofs.TableIndex
  ────────────────────────────────
  **A TABLE IS A COMPLETE INDEX OF ITS RULES.**

  Every place of every right-hand side is listed once, under the symbol that
  stands there, with what it calls for and the terminals that can come next.
  Nothing else is listed, whatever order the rules are given in and however their
  numbers are chosen.

  Main statement: `table_indexes_rules`.
-/
import Mathlib.Data.List.Nodup
import ShiftReduce.Proofs.Grammar.Build
import ShiftReduce.Proofs.Grammar.Items
import ShiftReduce.Proofs.Grammar.Traversal
import ShiftReduce.Symbol.Named

namespace ShiftReduce

variable {S : Type} [DecidableEq S] [GrammarSymbol S]

/-! ## §1. What is listed under a symbol. -/

/-- What an item of a table calls for with its dot on `symbol`. -/
structure Item.Calls (table : DecisionTable S) (symbol : S) (item : Item S) : Prop where
  accept : item.action = .accept ↔
    item.position + 1 = item.rule.rhs.length ∧ GrammarSymbol.isEndMarker symbol = true
  reduce : item.action = .reduce ↔
    item.position + 1 = item.rule.rhs.length ∧ GrammarSymbol.isEndMarker symbol = false
  shift : item.action = .shift ↔ item.position + 1 ≠ item.rule.rhs.length
  lookaheads : ∀ next, item.rule.rhs[item.position + 1]? = some next → item.lookaheads = table.first next
  no_lookahead : item.position + 1 = item.rule.rhs.length → item.lookaheads = ∅

/-- Under the symbol a table lists the places where it stands in the rules, each once,
by the number of the rule and from the left to the right. -/
structure DecisionTable.Indexes (table : DecisionTable S) (rules : List (Rule S)) (symbol : S) : Prop where
  places : ∀ (rule : Rule S) (position : Nat),
    (∃ item ∈ table.items symbol, item.rule = rule ∧ item.position = position) ↔
      rule ∈ rules ∧ rule.rhs[position]? = some symbol
  once : ((table.items symbol).map fun item => (item.rule, item.position)).Nodup
  ordered : (table.items symbol).Pairwise fun a b =>
    a.rule.id < b.rule.id ∨ (a.rule.id = b.rule.id ∧ a.position < b.position)
  calls : ∀ item ∈ table.items symbol, item.Calls table symbol

namespace DecisionTable

variable {rules : List (Rule S)} {table : DecisionTable S} {symbol : S}

theorem calls_of_mem_items {item : Item S} (mem : item ∈ table.items symbol) :
    item.Calls table symbol := by
  obtain ⟨rule, hrule, position, hsymbol, rfl⟩ := mem_items.1 mem
  have within : position < rule.rhs.length := (List.getElem?_eq_some_iff.1 hsymbol).1
  -- The dot is on a symbol of the rule, so it is past no place but the last one.
  have last : rule.rhs.length ≤ position + 1 ↔ position + 1 = rule.rhs.length := by
    omega
  have ends (h : position + 1 = rule.rhs.length) :
      rule.isTerminating = GrammarSymbol.isEndMarker symbol :=
    Rule.isTerminating_of_last hsymbol (last.2 h)
  refine ⟨?_, ?_, ?_, ?_, ?_⟩
  · rw [RuleSet.action_itemAt_eq_accept, last]
    exact and_congr_right fun h => by rw [ends h]
  · rw [RuleSet.action_itemAt_eq_reduce, last]
    exact and_congr_right fun h => by rw [ends h]
  · rw [RuleSet.action_itemAt_eq_shift, RuleSet.position_itemAt, RuleSet.rule_itemAt]
    omega
  · intro next hnext
    exact RuleSet.lookaheads_itemAt table.rules hnext
  · intro h
    have none : rule.rhs[position + 1]? = none := List.getElem?_eq_none (Nat.le_of_eq h.symm)
    rw [RuleSet.itemAt, none]
    rfl

/-- A table that has been built indexes the rules it has been built from. -/
theorem indexes_of_build (built : build rules = .ok table) (symbol : S) :
    table.Indexes rules symbol := by
  have ordered := table.ordered_items symbol
  refine ⟨?_, ?_, ordered.imp ?_, fun item => calls_of_mem_items⟩
  · intro rule position
    constructor
    · intro h
      obtain ⟨item, mem, rfl, rfl⟩ := h
      obtain ⟨rule, hrule, position, hsymbol, rfl⟩ := mem_items.1 mem
      exact ⟨(mem_rules_of_build built).1 hrule, hsymbol⟩
    · intro h
      obtain ⟨hrule, hsymbol⟩ := h
      refine ⟨table.rules.itemAt rule position, mem_items.2 ?_, rfl, rfl⟩
      exact ⟨rule, (mem_rules_of_build built).2 hrule, position, hsymbol, rfl⟩
  · -- Two items of one place would have to come before each other.
    refine List.pairwise_map.2 (ordered.imp ?_)
    intro a b before same
    obtain ⟨rule, position⟩ := Prod.mk.inj same
    rcases before with less | ⟨_, less⟩
    · exact Nat.lt_irrefl _ (rule ▸ less)
    · rw [Item.span, Item.span, position] at less
      exact Nat.lt_irrefl _ less
  · intro a b before
    rcases before with less | ⟨same, less⟩
    · exact .inl less
    · exact .inr ⟨congrArg Rule.id same, Nat.lt_of_succ_lt_succ less⟩

/-! ## §2. The symbols and the whole index. -/

theorem ascending_symbols (table : DecisionTable S) : Ascending table.symbols := by
  rw [symbols_eq]
  exact table.rules.symbols.ascending

/-- The symbols of a table are those that occur in the rules. -/
theorem mem_symbols_iff_of_build (built : build rules = .ok table) :
    symbol ∈ table.symbols ↔ ∃ rule ∈ rules, symbol = rule.lhs ∨ symbol ∈ rule.rhs := by
  rw [symbols_eq, RuleSet.symbols, ← SymbolSet.mem_def, SymbolSet.mem_ofList, List.mem_flatMap]
  simp only [mem_rules_of_build built, Rule.symbols, List.mem_cons]

/-- The index lists the items of one symbol after the other. -/
theorem entries_eq (table : DecisionTable S) :
    table.entries = table.symbols.flatMap fun symbol =>
      (table.items symbol).map fun item => (symbol, item) := by
  rw [symbols_eq, entries, table.itemIndex_eq, RuleSet.itemIndex, List.flatMap_map]
  refine List.flatMap_congr fun symbol _ => ?_
  rw [items_eq, RuleSet.itemsAt]

theorem mem_entries {item : Item S} : (symbol, item) ∈ table.entries ↔ item ∈ table.items symbol := by
  rw [entries_eq, List.mem_flatMap]
  -- A pair is listed under its own symbol only, so the symbol found is the one asked for.
  constructor
  · intro h
    obtain ⟨other, _, mem⟩ := h
    obtain ⟨_, mem, same⟩ := List.mem_map.1 mem
    cases same
    exact mem
  · intro mem
    exact ⟨symbol, mem_symbols_of_mem_items mem, List.mem_map.2 ⟨item, mem, rfl⟩⟩

/-- No item is listed twice under one symbol, and none under two symbols. -/
theorem nodup_entries (built : build rules = .ok table) : table.entries.Nodup := by
  rw [entries_eq]
  refine List.pairwise_flatMap.2 ⟨fun symbol _ => ?_, ?_⟩
  -- Under one symbol the items differ; under two symbols the pairs do.
  · have nodup : (table.items symbol).Nodup := List.Nodup.of_map _ (indexes_of_build built symbol).once
    refine List.pairwise_map.2 (nodup.imp ?_)
    intro a b different same
    exact different (Prod.mk.inj same).2
  · have nodup : table.symbols.Nodup := by
      rw [symbols_eq]
      exact table.rules.symbols.nodup_toList
    refine nodup.imp ?_
    intro one other different a ha b hb same
    obtain ⟨_, _, rfl⟩ := List.mem_map.1 ha
    obtain ⟨_, _, rfl⟩ := List.mem_map.1 hb
    exact different (Prod.mk.inj same).1

/-- A table that has been built accepts explicitly if and only if some of the rules
ends with an end-marker. -/
theorem acceptsExplicitly_iff_of_build (built : build rules = .ok table) :
    table.acceptsExplicitly = true ↔
      ∃ rule ∈ rules, ∃ symbol, rule.rhs.getLast? = some symbol ∧ GrammarSymbol.isEndMarker symbol = true := by
  rw [acceptsExplicitly_iff]
  simp only [mem_rules_of_build built, Rule.isTerminating, Option.any_eq_true]

end DecisionTable

/-! ## §3. The index. -/

/-- A table can be built if and only if there is a rule, none is empty and their numbers
differ.  It then lists, under every symbol, each place where the symbol stands in a rule
once and nothing else, by number and from the left to the right, with what the place calls
for.  Its symbols are those of the rules in strictly ascending order, all of its items are
listed once in the order of the symbols, and it accepts explicitly if and only if some rule
ends with an end-marker. -/
theorem table_indexes_rules (rules : List (Rule S)) :
    ((∃ table, DecisionTable.build rules = .ok table) ↔
      rules ≠ [] ∧ (∀ rule ∈ rules, rule.rhs ≠ []) ∧ (rules.map Rule.id).Nodup) ∧
    ∀ table, DecisionTable.build rules = .ok table →
      (∀ symbol, table.Indexes rules symbol) ∧
      (Ascending table.symbols ∧ ∀ symbol, symbol ∈ table.symbols ↔
        ∃ rule ∈ rules, symbol = rule.lhs ∨ symbol ∈ rule.rhs) ∧
      (table.entries = table.symbols.flatMap (fun symbol =>
          (table.items symbol).map fun item => (symbol, item)) ∧
        table.entries.Nodup ∧
        ∀ symbol item, (symbol, item) ∈ table.entries ↔ item ∈ table.items symbol) ∧
      (table.acceptsExplicitly = true ↔ ∃ rule ∈ rules, ∃ symbol,
        rule.rhs.getLast? = some symbol ∧ GrammarSymbol.isEndMarker symbol = true) := by
  refine ⟨DecisionTable.exists_build_iff, fun table built => ⟨?_, ?_, ?_, ?_⟩⟩
  · exact DecisionTable.indexes_of_build built
  · exact ⟨table.ascending_symbols, fun _ => DecisionTable.mem_symbols_iff_of_build built⟩
  · exact ⟨table.entries_eq, DecisionTable.nodup_entries built, fun _ _ => DecisionTable.mem_entries⟩
  · exact DecisionTable.acceptsExplicitly_iff_of_build built

/-- The rules `E => E E`, `S => E <eos>` and `E => a` with the numbers 9, 4 and 6. -/
def sparseRules : List (Rule Symbol) :=
  [⟨9, .nonTerminal "E", [.nonTerminal "E", .nonTerminal "E"]⟩,
    ⟨4, .nonTerminal "S", [.nonTerminal "E", .endMarker]⟩,
    ⟨6, .nonTerminal "E", [.terminal "a"]⟩]

/-- They make a table that lists `S`, which has no item, and accepts under the
end-marker at the end of the second rule. -/
theorem table_indexes_rules_sparse :
    ∃ table, DecisionTable.build sparseRules = .ok table ∧
      .nonTerminal "S" ∈ table.symbols ∧ table.acceptsExplicitly = true ∧
      ∃ item ∈ table.items .endMarker, item.rule.id = 4 ∧ item.position = 1 ∧
        item.action = .accept ∧ item.lookaheads = ∅ := by
  obtain ⟨builds, index⟩ := table_indexes_rules sparseRules
  obtain ⟨table, built⟩ := builds.2 (by decide)
  obtain ⟨indexes, symbols, _, explicit⟩ := index table built
  refine ⟨table, built, (symbols.2 _).2 (by decide), explicit.2 (by decide), ?_⟩
  obtain ⟨item, mem, hrule, hposition⟩ := ((indexes .endMarker).places
    ⟨4, .nonTerminal "S", [.nonTerminal "E", .endMarker]⟩ 1).2 (by decide)
  have calls := (indexes .endMarker).calls item mem
  have last : item.position + 1 = item.rule.rhs.length := by
    rw [hrule, hposition]
    rfl
  exact ⟨item, mem, by rw [hrule], hposition, calls.accept.2 ⟨last, rfl⟩, calls.no_lookahead last⟩

end ShiftReduce
