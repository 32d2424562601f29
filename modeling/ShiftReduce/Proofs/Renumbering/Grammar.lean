/-
  ShiftReduce.Proofs.Renumbering.Grammar
  ────────────────────────────────
  **RULES WITH OTHER NUMBERS AND THEIR TABLE.**

  Once rules are in order, nothing asks for a number again.  Two rule sets that
  have the same rules in the same order, but for the numbers, determine the same
  sets of symbols, and the same items but for the numbers of their rules.

  Main statement: `DecisionTable.renumbers_of_rules`.
-/
import Mathlib.Data.List.Basic
import ShiftReduce.Proofs.Grammar.Order

namespace ShiftReduce

variable {S : Type} {g : Nat → Nat}

/-! ## §1. Rules. -/

/-- The same rule with its number changed. -/
def Rule.renumber (g : Nat → Nat) (rule : Rule S) : Rule S :=
  { rule with id := g rule.id }

/-- Numbers that stay in order leave every rule in its place. -/
theorem keepsOrder_renumber {rules : List (Rule S)}
    (increasing : ∀ a ∈ rules, ∀ b ∈ rules, a.id < b.id → g a.id < g b.id) :
    KeepsOrder (Rule.renumber g) g rules where
  id _ := rfl
  empty _ := rfl
  lt := increasing

/-! ## §2. What rules in order determine. -/

namespace RuleSet

variable {rules image : RuleSet S}

theorem start_renumber (h : image.toList = rules.toList.map (Rule.renumber g)) :
    image.start = rules.start := by
  have first : image.toList.head image.ne_nil = (rules.toList.head rules.ne_nil).renumber g := by
    simp only [h, List.head_map]
  rw [start, start, first]
  rfl

section
variable [DecidableEq S]

/-- Rules fire for their left-hand sides, whatever their numbers. -/
theorem spreadCorners_renumber (rounds : Nat) (waiting : List (Rule S)) (frontier : List S) :
    spreadCorners rounds (waiting.map (Rule.renumber g)) frontier =
      spreadCorners rounds waiting frontier := by
  induction rounds generalizing waiting frontier with
  | zero => rfl
  | succ rounds ih =>
    rw [spreadCorners, spreadCorners, List.filter_map, List.filter_map, List.filterMap_map,
      List.isEmpty_map, ih]
    rfl

variable [GrammarSymbol S]

theorem leftCorners_renumber (h : image.toList = rules.toList.map (Rule.renumber g)) :
    image.leftCorners = rules.leftCorners := by
  funext symbol
  rw [leftCorners, leftCorners, h, List.length_map, spreadCorners_renumber]

theorem first_renumber (h : image.toList = rules.toList.map (Rule.renumber g)) :
    image.first = rules.first := by
  funext symbol
  rw [first, first, leftCorners_renumber h]

omit [DecidableEq S] in
theorem symbols_renumber (h : image.toList = rules.toList.map (Rule.renumber g)) :
    image.symbols = rules.symbols := by
  rw [symbols, symbols, h, List.flatMap_map]
  rfl

theorem successors_renumber (h : image.toList = rules.toList.map (Rule.renumber g)) :
    image.successors = rules.successors := by
  funext symbol
  rw [successors, successors, nextSymbols, nextSymbols, leftCorners_renumber h, h, List.flatMap_map]
  rfl

theorem bottoms_renumber (h : image.toList = rules.toList.map (Rule.renumber g)) :
    image.bottoms = rules.bottoms := by
  rw [bottoms, bottoms, start_renumber h, leftCorners_renumber h]

end

end RuleSet

/-! ## §3. Items. -/

variable [GrammarSymbol S]

/-- The same item with the number of its rule changed. -/
def Item.renumber (g : Nat → Nat) (item : Item S) : Item S :=
  { item with rule := item.rule.renumber g }

theorem Item.ofRule?_renumber (rule : Rule S) (position : Nat) :
    ofRule? (rule.renumber g) position = (ofRule? rule position).map (renumber g) := by
  rw [ofRule?, ofRule?, Option.map_map]
  rfl

variable [DecidableEq S]

namespace RuleSet

variable {rules image : RuleSet S}

theorem item?_renumber (h : image.toList = rules.toList.map (Rule.renumber g)) (rule : Rule S)
    (position : Nat) :
    image.item? (rule.renumber g) position = (rules.item? rule position).map (Item.renumber g) := by
  rw [item?, item?, Item.ofRule?_renumber, first_renumber h, Option.map_map, Option.map_map]
  rfl

/-- The items come in the order of their rules, and so in the same order. -/
theorem items_renumber (h : image.toList = rules.toList.map (Rule.renumber g)) :
    image.items = rules.items.map (Item.renumber g) := by
  rw [items, items, h, List.flatMap_map, List.map_flatMap]
  refine List.flatMap_congr fun rule _ => ?_
  rw [itemsOfRule, itemsOfRule, List.map_filterMap]
  exact List.filterMap_congr fun position _ => item?_renumber h rule position

theorem acceptsExplicitly_renumber (h : image.toList = rules.toList.map (Rule.renumber g)) :
    image.acceptsExplicitly = rules.acceptsExplicitly := by
  rw [acceptsExplicitly, acceptsExplicitly, items_renumber h, List.any_map]
  rfl

end RuleSet

/-! ## §4. Tables. -/

namespace DecisionTable

/-- The second table has the rules and the items of the first one in their
order, with the numbers of the rules changed, and is the same otherwise. -/
structure Renumbers (g : Nat → Nat) (table image : DecisionTable S) : Prop where
  rules : image.rules.toList = table.rules.toList.map (Rule.renumber g)
  itemIndex : image.itemIndex =
    table.itemIndex.map fun entry => (entry.1, entry.2.map (Item.renumber g))
  successorIndex : image.successorIndex = table.successorIndex
  bottoms : image.bottoms = table.bottoms
  acceptsExplicitly : image.acceptsExplicitly = table.acceptsExplicitly

variable {table image : DecisionTable S}

/-- A table is determined by its rules in their order. -/
theorem renumbers_of_rules (h : image.rules.toList = table.rules.toList.map (Rule.renumber g)) :
    table.Renumbers g image where
  rules := h
  itemIndex := by
    rw [image.itemIndex_eq, table.itemIndex_eq, RuleSet.itemIndex, RuleSet.itemIndex,
      RuleSet.symbols_renumber h, List.map_map]
    refine List.map_congr_left fun symbol _ => ?_
    rw [RuleSet.items_renumber h, List.filter_map]
    rfl
  successorIndex := by
    rw [image.successorIndex_eq, table.successorIndex_eq, RuleSet.successorIndex, RuleSet.successorIndex,
      RuleSet.symbols_renumber h, RuleSet.successors_renumber h]
  bottoms := by
    rw [image.bottoms_eq, table.bottoms_eq, RuleSet.bottoms_renumber h]
  acceptsExplicitly := by
    rw [image.acceptsExplicitly_eq, table.acceptsExplicitly_eq, RuleSet.acceptsExplicitly_renumber h]

/-- Rules with other numbers in the same order are refused for the same reason,
or make the same table but for the numbers. -/
theorem build_renumber {rules : List (Rule S)}
    (increasing : ∀ a ∈ rules, ∀ b ∈ rules, a.id < b.id → g a.id < g b.id) :
    match build rules with
    | .error error => build (rules.map (Rule.renumber g)) = .error (error.renumber g)
    | .ok table => ∃ image, build (rules.map (Rule.renumber g)) = .ok image ∧ table.Renumbers g image := by
  have same := (keepsOrder_renumber increasing).ofRules_map
  unfold build
  cases hset : RuleSet.ofRules rules with
  | error error =>
    rw [hset] at same
    rw [same]
    rfl
  | ok set =>
    rw [hset] at same
    obtain ⟨image, himage, toList⟩ := same
    rw [himage]
    exact ⟨ofRuleSet image, rfl, renumbers_of_rules toList⟩

namespace Renumbers

variable (h : table.Renumbers g image)
include h

theorem items (symbol : S) : image.items symbol = (table.items symbol).map (Item.renumber g) := by
  rw [items_eq, items_eq, RuleSet.itemsAt, RuleSet.itemsAt, RuleSet.items_renumber h.rules,
    List.filter_map]
  rfl

theorem first : image.first = table.first :=
  RuleSet.first_renumber h.rules

theorem start : image.start = table.start :=
  RuleSet.start_renumber h.rules

theorem followers : image.followers = table.followers := by
  funext below
  rw [followers_eq, followers_eq, RuleSet.bottoms_renumber h.rules, RuleSet.successors_renumber h.rules]

theorem canFollow : image.canFollow = table.canFollow := by
  funext below top
  unfold DecisionTable.canFollow
  simp only [h.followers]

end Renumbers

end DecisionTable

end ShiftReduce
