/-
  ShiftReduce.Item
  ────────────────────────────────
  **ITEMS: A RULE AND HOW FAR THE STACK HAS FOLLOWED IT.**

  The dot of an item sits on a symbol of a right-hand side, the one that is on
  top of the stack.  An item whose dot sits on the last symbol is complete and
  calls for a reduction, one that ends with an end-marker for acceptance; any
  other calls for a shift.
-/
import ShiftReduce.RuleSet.Corners

namespace ShiftReduce

variable {S : Type}

/-! ## §1. Items. -/

/-- What an item calls for. -/
inductive Action where
  /-- Further symbols are needed to complete the rule. -/
  | shift
  /-- The rule is complete. -/
  | reduce
  /-- The rule is complete and ends with the end-marker. -/
  | accept
  deriving DecidableEq

/-- The word for an action. -/
def Action.text : Action → String
  | shift => "shift"
  | reduce => "reduce"
  | accept => "acc"

/-- A rule with the dot on the symbol at `position` of its right-hand side. -/
structure Item (S : Type) [GrammarSymbol S] where
  rule : Rule S
  position : Nat
  action : Action
  /-- The terminals that can follow the dot; none if the item is complete. -/
  lookaheads : SymbolSet S
  deriving DecidableEq

namespace Item

variable [GrammarSymbol S]

/-! ## §2. What an item says about the stack. -/

/-- The symbol under the dot. -/
def symbol? (item : Item S) : Option S :=
  item.rule.rhs[item.position]?

/-- The symbol after the dot. -/
def next? (item : Item S) : Option S :=
  item.rule.rhs[item.position + 1]?

/-- The symbol that the item expects on the stack at the given distance from
the top; the symbol under the dot is at distance one. -/
def symbolAt? (item : Item S) (distance : Nat) : Option S :=
  if distance = 0 ∨ item.position + 1 < distance then none
  else item.rule.rhs[item.position + 1 - distance]?

/-- At distance one stands the symbol under the dot. -/
theorem symbolAt?_one (item : Item S) : item.symbolAt? 1 = item.symbol? := by
  simp [symbolAt?, symbol?]

/-- The number of stack entries that the item covers. -/
def span (item : Item S) : Nat :=
  item.position + 1

/-- The item calls for a shift. -/
def isShift (item : Item S) : Bool :=
  item.action = .shift

/-- The item calls for acceptance. -/
def isAccept (item : Item S) : Bool :=
  item.action = .accept

/-- The item can go on when the next token is of the given kind: a shift needs
it among its lookaheads, a complete item does not care. -/
def admits [DecidableEq S] (item : Item S) (next : Option S) : Bool :=
  match item.action with
  | .shift => next.any fun kind => decide (kind ∈ item.lookaheads)
  | .reduce => true
  | .accept => true

/-! ## §3. Making items. -/

/-- The item of a rule at a position of its right-hand side, without
lookaheads; there is none past the end. -/
def ofRule? (rule : Rule S) (position : Nat) : Option (Item S) :=
  rule.rhs[position]?.map fun symbol =>
    { rule
      position
      action :=
        if position + 1 < rule.rhs.length then .shift
        else if GrammarSymbol.isEndMarker symbol then .accept
        else .reduce
      lookaheads := ∅ }

/-! ## §4. Text. -/

/-- The item as it is shown, the dot after the symbol it sits on. -/
def text (item : Item S) : String :=
  let done := item.rule.rhs.take (item.position + 1)
  let rest := item.rule.rhs.drop (item.position + 1)
  "[(" ++ toString item.rule.id ++ ") " ++ GrammarSymbol.text item.rule.lhs ++ " -> "
    ++ showSymbols " " done ++ " •"
    ++ (if rest.isEmpty then "" else " " ++ showSymbols " " rest)
    ++ (if item.lookaheads.toList.isEmpty then "" else ", " ++ showSymbols "/" item.lookaheads.toList)
    ++ "]"

end Item

namespace RuleSet

variable [DecidableEq S] [GrammarSymbol S]

/-- The item of a rule at a position, with the first terminals of the symbol
after the dot as its lookaheads. -/
def item? (rules : RuleSet S) (rule : Rule S) (position : Nat) : Option (Item S) :=
  (Item.ofRule? rule position).map fun item =>
    { item with lookaheads := (item.next?.map rules.first).getD ∅ }

/-- The items of a rule, from the left to the right. -/
def itemsOfRule (rules : RuleSet S) (rule : Rule S) : List (Item S) :=
  (List.range rule.rhs.length).filterMap (rules.item? rule)

/-- All the items of the rules, rule by rule. -/
def items (rules : RuleSet S) : List (Item S) :=
  rules.toList.flatMap rules.itemsOfRule

end RuleSet

end ShiftReduce
