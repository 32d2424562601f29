/-
  ShiftReduce.DecisionTable
  ────────────────────────────────
  **THE DECISION TABLE OF A GRAMMAR.**

  For every symbol the items whose dot sits on it, for every symbol what may
  sit right above it on the stack, and what may sit at the bottom.  The table
  keeps these once computed, and its proof fields say that they are what the
  rules determine.

  Main statements: looking up in the table gives what the rules determine, for
  unknown symbols too (`items_eq`, `followers_eq`), and tables of the same rules
  are equal (`ext_rules`).
-/
import ShiftReduce.Item

namespace ShiftReduce

variable {S : Type} [DecidableEq S] [GrammarSymbol S]

/-! ## §1. What the rules determine. -/

/-- Looking up in a list of keys with a value computed from each. -/
theorem lookup_map {α β : Type} [DecidableEq α] (keys : List α) (f : α → β) (key : α) :
    (keys.map fun k => (k, f k)).lookup key = if key ∈ keys then some (f key) else none := by
  induction keys with
  | nil => rfl
  | cons k rest ih =>
    by_cases h : key = k
    · subst h
      simp
    · have hne : (key == k) = false := beq_eq_false_iff_ne.2 h
      simp only [List.map_cons, List.lookup_cons, hne, ih, List.mem_cons, h, false_or]

namespace RuleSet

/-- The items whose dot sits on the symbol, by rule number and then by position. -/
def itemsAt (rules : RuleSet S) (symbol : S) : List (Item S) :=
  rules.items.filter (·.symbol? = some symbol)

/-- The symbols that occur right after `symbol` in some right-hand side. -/
def nextSymbols (rules : RuleSet S) (symbol : S) : List S :=
  rules.toList.flatMap fun rule =>
    (rule.rhs.zip rule.rhs.tail).filterMap fun pair =>
      if pair.1 = symbol then some pair.2 else none

/-- The symbols that may sit right above `symbol` on the stack: those that
follow it in a rule, and whatever can open one of those. -/
def successors (rules : RuleSet S) (symbol : S) : SymbolSet S :=
  SymbolSet.ofList ((rules.nextSymbols symbol).flatMap fun next =>
    next :: (rules.leftCorners next).toList)

/-- The symbols that may sit at the bottom of the stack: the start symbol, and
whatever can open it. -/
def bottoms (rules : RuleSet S) : SymbolSet S :=
  (rules.leftCorners rules.start).insert rules.start

/-- Some rule ends with an end-marker. -/
def acceptsExplicitly (rules : RuleSet S) : Bool :=
  rules.items.any Item.isAccept

/-- No item's dot sits on a symbol that no rule mentions. -/
theorem itemsAt_eq_nil {rules : RuleSet S} {symbol : S} (h : symbol ∉ rules.symbols.toList) :
    rules.itemsAt symbol = [] := by
  refine List.filter_eq_nil_iff.2 fun item mem => ?_
  obtain ⟨rule, hrule, hitem⟩ := List.mem_flatMap.1 mem
  obtain ⟨position, _, hmade⟩ := List.mem_filterMap.1 hitem
  intro hsymbol
  apply h
  obtain ⟨bare, hbare, rfl⟩ := Option.map_eq_some_iff.1 hmade
  obtain ⟨found, _, rfl⟩ := Option.map_eq_some_iff.1 hbare
  have hat : rule.rhs[position]? = some symbol := of_decide_eq_true hsymbol
  exact SymbolSet.mem_ofList.2
    (List.mem_flatMap.2 ⟨rule, hrule, List.mem_cons_of_mem _ (List.mem_of_getElem? hat)⟩)

/-- Nothing comes after a symbol that no rule mentions. -/
theorem successors_eq_empty {rules : RuleSet S} {symbol : S} (h : symbol ∉ rules.symbols.toList) :
    rules.successors symbol = ∅ := by
  have none : rules.nextSymbols symbol = [] := by
    refine List.flatMap_eq_nil_iff.2 fun rule hrule => List.filterMap_eq_nil_iff.2 fun pair hpair => ?_
    split
    · next heq =>
      refine absurd ?_ h
      have hmem : symbol ∈ rule.rhs := heq ▸ (List.of_mem_zip hpair).1
      exact SymbolSet.mem_ofList.2 (List.mem_flatMap.2 ⟨rule, hrule, List.mem_cons_of_mem _ hmem⟩)
    · rfl
  rw [successors, none]
  rfl

/-- The items of every symbol, in the order of the symbols. -/
def itemIndex (rules : RuleSet S) : List (S × List (Item S)) :=
  let items := rules.items
  rules.symbols.toList.map fun symbol => (symbol, items.filter (·.symbol? = some symbol))

/-- The successors of every symbol, in the order of the symbols. -/
def successorIndex (rules : RuleSet S) : List (S × SymbolSet S) :=
  rules.symbols.toList.map fun symbol => (symbol, rules.successors symbol)

end RuleSet

/-! ## §2. Tables. -/

/-- A rule set with everything that parsing looks up in it. -/
structure DecisionTable (S : Type) [DecidableEq S] [GrammarSymbol S] where
  rules : RuleSet S
  itemIndex : List (S × List (Item S))
  itemIndex_eq : itemIndex = rules.itemIndex
  successorIndex : List (S × SymbolSet S)
  successorIndex_eq : successorIndex = rules.successorIndex
  bottoms : SymbolSet S
  bottoms_eq : bottoms = rules.bottoms
  acceptsExplicitly : Bool
  acceptsExplicitly_eq : acceptsExplicitly = rules.acceptsExplicitly

namespace DecisionTable

/-- The table of a rule set. -/
def ofRuleSet (rules : RuleSet S) : DecisionTable S :=
  { rules
    itemIndex := rules.itemIndex
    itemIndex_eq := rfl
    successorIndex := rules.successorIndex
    successorIndex_eq := rfl
    bottoms := rules.bottoms
    bottoms_eq := rfl
    acceptsExplicitly := rules.acceptsExplicitly
    acceptsExplicitly_eq := rfl }

/-- Checks the rules and builds their table. -/
def build (rules : List (Rule S)) : Except GrammarError (DecisionTable S) :=
  (RuleSet.ofRules rules).map ofRuleSet

/-- The items whose dot sits on the symbol; none for an unknown symbol. -/
def items (table : DecisionTable S) (symbol : S) : List (Item S) :=
  (table.itemIndex.lookup symbol).getD []

/-- The symbol occurs in the rules. -/
def contains (table : DecisionTable S) (symbol : S) : Bool :=
  (table.itemIndex.lookup symbol).isSome

/-- The start symbol. -/
def start (table : DecisionTable S) : S :=
  table.rules.start

/-- The symbols of the rules, in ascending order. -/
def symbols (table : DecisionTable S) : List S :=
  table.itemIndex.map Prod.fst

/-- Every item with the symbol under its dot, symbol by symbol. -/
def entries (table : DecisionTable S) : List (S × Item S) :=
  table.itemIndex.flatMap fun entry => entry.2.map fun item => (entry.1, item)

/-- The first terminals of a symbol. -/
def first (table : DecisionTable S) (symbol : S) : SymbolSet S :=
  table.rules.first symbol

/-- The symbols that may sit right above `below` on the stack, or at the bottom
if there is nothing below. -/
def followers (table : DecisionTable S) (below : Option S) : SymbolSet S :=
  match below with
  | none => table.bottoms
  | some symbol => (table.successorIndex.lookup symbol).getD ∅

/-- The symbol may sit right above `below`, or at the bottom if there is
nothing below. -/
def canFollow (table : DecisionTable S) (below : Option S) (top : S) : Bool :=
  decide (top ∈ table.followers below)

/-! ## §3. Looking up. -/

theorem ext_rules {left right : DecisionTable S} (h : left.rules = right.rules) : left = right := by
  obtain ⟨rules, _, hitems, _, hsuccessors, _, hbottoms, _, haccept⟩ := left
  obtain ⟨rules', _, hitems', _, hsuccessors', _, hbottoms', _, haccept'⟩ := right
  cases h
  subst hitems hsuccessors hbottoms haccept hitems' hsuccessors' hbottoms' haccept'
  rfl

theorem items_eq (table : DecisionTable S) (symbol : S) :
    table.items symbol = table.rules.itemsAt symbol := by
  rw [items, table.itemIndex_eq, RuleSet.itemIndex, lookup_map]
  split
  · rfl
  · next h =>
    exact (RuleSet.itemsAt_eq_nil h).symm

theorem followers_eq (table : DecisionTable S) (below : Option S) :
    table.followers below =
      match below with
      | none => table.rules.bottoms
      | some symbol => table.rules.successors symbol := by
  cases below with
  | none => exact table.bottoms_eq
  | some symbol =>
    simp only [followers]
    rw [table.successorIndex_eq, RuleSet.successorIndex, lookup_map]
    split
    · rfl
    · next h =>
      exact (RuleSet.successors_eq_empty h).symm

theorem canFollow_iff {table : DecisionTable S} {below : Option S} {top : S} :
    table.canFollow below top = true ↔ top ∈ table.followers below :=
  decide_eq_true_iff

end DecisionTable

end ShiftReduce
