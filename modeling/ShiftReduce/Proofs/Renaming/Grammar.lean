/-
  ShiftReduce.Proofs.Renaming.Grammar
  ────────────────────────────────
  **RENAMED RULES AND THEIR TABLE.**

  Rules are put in order by their numbers, which a renaming leaves alone, and
  refused for reasons that mention numbers only.  What a table knows about a
  symbol is known of its image by the table of the renamed rules, in the same
  order where it is a list.

  Main statements: `build_rename`, and for the lookups `items_rename`,
  `followers_rename`, `first_rename` and `canFollow_rename`.
-/
import ShiftReduce.Proofs.Grammar.Order
import ShiftReduce.Proofs.Renaming.Symbols

namespace ShiftReduce

variable {S T : Type} [GrammarSymbol S] [GrammarSymbol T] (f : Renaming S T)

/-! ## §1. Rules in order. -/

/-- The rule for the images of its symbols, with the same number. -/
def Rule.rename (rule : Rule S) : Rule T :=
  { id := rule.id
    lhs := f rule.lhs
    rhs := rule.rhs.map f }

/-- The numbers stay, so every rule keeps its place. -/
theorem keepsOrder_rename (rules : List (Rule S)) : KeepsOrder (Rule.rename f) id rules where
  id _ := rfl
  empty _ := List.isEmpty_map
  lt _ _ _ _ := id

/-! ## §2. Renamed rule sets. -/

namespace RuleSet

/-- The rules of a set, each renamed. -/
def rename (rules : RuleSet S) : RuleSet T :=
  { toList := rules.toList.map (Rule.rename f)
    ne_nil := by
      rw [Ne, List.map_eq_nil_iff]
      exact rules.ne_nil
    rhs_ne_nil := by
      intro image mem
      obtain ⟨rule, hrule, rfl⟩ := List.mem_map.1 mem
      rw [Rule.rename, Ne, List.map_eq_nil_iff]
      exact rules.rhs_ne_nil rule hrule
    ascending := List.pairwise_map.2 rules.ascending }

/-- Renamed rules are refused for the same reason, or accepted like the rules. -/
theorem ofRules_rename (rules : List (Rule S)) :
    ofRules (rules.map (Rule.rename f)) = (ofRules rules).map (rename f) := by
  have same := (keepsOrder_rename f rules).ofRules_map
  cases hset : ofRules rules with
  | error error =>
    rw [hset] at same
    rw [same, error.renumber_id]
    rfl
  | ok set =>
    rw [hset] at same
    obtain ⟨image, himage, toList⟩ := same
    rw [himage]
    exact congrArg Except.ok (ext_toList toList)

theorem start_rename (rules : RuleSet S) : (rules.rename f).start = f rules.start :=
  congrArg Rule.lhs (List.head_map (rules.rename f).ne_nil)

end RuleSet

/-! ## §3. What renamed rules determine. -/

variable [DecidableEq S] [DecidableEq T]

theorem spreadCorners_map (rounds : Nat) (waiting : List (Rule S)) (frontier : List S) :
    spreadCorners rounds (waiting.map (Rule.rename f)) (frontier.map f) =
      (spreadCorners rounds waiting frontier).map f := by
  -- By induction on the rounds; which rules fire depends on membership, and the renaming is injective.
  induction rounds generalizing waiting frontier with
  | zero => rfl
  | succ rounds ih =>
    have fires : (fun rule : Rule T => decide (rule.lhs ∈ frontier.map f)) ∘ Rule.rename f =
        fun rule : Rule S => decide (rule.lhs ∈ frontier) :=
      funext fun rule => decide_eq_decide.2 f.apply_mem_map
    have waits : (fun rule : Rule T => !decide (rule.lhs ∈ frontier.map f)) ∘ Rule.rename f =
        fun rule : Rule S => !decide (rule.lhs ∈ frontier) :=
      funext fun rule => congrArg not (congrFun fires rule)
    have heads (firing : List (Rule S)) :
        (firing.map (Rule.rename f)).filterMap (fun rule => rule.rhs.head?) =
          (firing.filterMap fun rule => rule.rhs.head?).map f := by
      rw [List.filterMap_map, List.map_filterMap]
      refine List.filterMap_congr fun rule _ => ?_
      exact List.head?_map
    rw [spreadCorners, spreadCorners, List.filter_map, fires, List.filter_map, waits, heads,
      List.isEmpty_map, ih]
    split
    · rfl
    · rw [List.map_append]

namespace RuleSet

variable (rules : RuleSet S)

@[simp]
theorem leftCorners_rename (symbol : S) :
    (rules.rename f).leftCorners (f symbol) = (rules.leftCorners symbol).rename f := by
  rw [leftCorners, leftCorners, SymbolSet.rename_ofList, ← spreadCorners_map, List.map_singleton,
    rename, List.length_map]

@[simp]
theorem first_rename (symbol : S) : (rules.rename f).first (f symbol) = (rules.first symbol).rename f := by
  rw [first, first, f.isTerminal_apply]
  split
  · rw [SymbolSet.rename_ofList, List.map_singleton]
  · rw [leftCorners_rename, ← SymbolSet.rename_filter f _ f.isTerminal_apply]

theorem nextSymbols_rename (symbol : S) :
    (rules.rename f).nextSymbols (f symbol) = (rules.nextSymbols symbol).map f := by
  rw [nextSymbols, nextSymbols, rename, List.flatMap_map, List.map_flatMap]
  refine List.flatMap_congr fun rule _ => ?_
  rw [Rule.rename, ← List.map_tail, List.zip_map, List.filterMap_map, List.map_filterMap]
  refine List.filterMap_congr fun pair _ => ?_
  show (if f pair.1 = f symbol then some (f pair.2) else none) = _
  -- A neighbour is taken for the image of the symbol only if it is taken for the symbol.
  by_cases here : pair.1 = symbol
  · rw [if_pos (f.apply_eq_apply.2 here), if_pos here]
    rfl
  · rw [if_neg (mt f.apply_eq_apply.1 here), if_neg here]
    rfl

@[simp]
theorem successors_rename (symbol : S) :
    (rules.rename f).successors (f symbol) = (rules.successors symbol).rename f := by
  rw [successors, successors, nextSymbols_rename]
  refine SymbolSet.ofList_flatMap_map f (fun next image => ?_) (rules.nextSymbols symbol)
  rw [List.map_cons, List.mem_cons, List.mem_cons, leftCorners_rename, SymbolSet.mem_toList_rename]

@[simp]
theorem bottoms_rename : (rules.rename f).bottoms = rules.bottoms.rename f := by
  rw [bottoms, bottoms, start_rename, leftCorners_rename, SymbolSet.rename_insert]

end RuleSet

/-! ## §4. Renamed items. -/

namespace Item

omit [DecidableEq S] [DecidableEq T]

/-- The item of the renamed rule, with the dot at the same place. -/
def rename (item : Item S) : Item T :=
  { rule := item.rule.rename f
    position := item.position
    action := item.action
    lookaheads := item.lookaheads.rename f }

variable (item : Item S)

@[simp]
theorem span_rename : (item.rename f).span = item.span := rfl

@[simp]
theorem symbol?_rename : (item.rename f).symbol? = item.symbol?.map f := List.getElem?_map

@[simp]
theorem next?_rename : (item.rename f).next? = item.next?.map f := List.getElem?_map

@[simp]
theorem symbolAt?_rename (distance : Nat) :
    (item.rename f).symbolAt? distance = (item.symbolAt? distance).map f := by
  show (if distance = 0 ∨ item.position + 1 < distance then none else _) = _
  rw [symbolAt?]
  split
  · rfl
  · exact List.getElem?_map

/-- An item can go on with the image of what it can go on with. -/
@[simp]
theorem admits_rename [DecidableEq S] [DecidableEq T] (next : Option S) :
    (item.rename f).admits (next.map f) = item.admits next := by
  obtain ⟨rule, position, action, lookaheads⟩ := item
  cases action with
  | reduce => rfl
  | accept => rfl
  | shift =>
    show (next.map f).any (fun kind => decide (kind ∈ lookaheads.rename f)) = _
    rw [Option.any_map]
    refine congrArg next.any (funext fun kind => ?_)
    exact decide_eq_decide.2 (SymbolSet.apply_mem_rename f)

theorem ofRule?_rename (rule : Rule S) (position : Nat) :
    ofRule? (rule.rename f) position = (ofRule? rule position).map (rename f) := by
  rw [ofRule?, ofRule?, Rule.rename, List.getElem?_map, Option.map_map, Option.map_map]
  refine congrArg (Option.map · rule.rhs[position]?) (funext fun symbol => ?_)
  simp only [Function.comp, List.length_map, f.isEndMarker_apply]
  rfl

end Item

namespace RuleSet

variable (rules : RuleSet S)

theorem item?_rename (rule : Rule S) (position : Nat) :
    (rules.rename f).item? (rule.rename f) position = (rules.item? rule position).map (Item.rename f) := by
  rw [item?, item?, Item.ofRule?_rename, Option.map_map, Option.map_map]
  refine congrArg (Option.map · (Item.ofRule? rule position)) (funext fun item => ?_)
  have lookaheads : (((item.rename f).next?.map (rules.rename f).first).getD ∅) =
      ((item.next?.map rules.first).getD ∅).rename f := by
    rw [Item.next?_rename]
    cases item.next? with
    | none => rfl
    | some next => exact rules.first_rename f next
  simp only [Function.comp, lookaheads]
  rfl

/-- The items of renamed rules are the renamed items, in their order. -/
theorem items_rename : (rules.rename f).items = rules.items.map (Item.rename f) := by
  rw [items, items, rename, List.flatMap_map, List.map_flatMap]
  refine List.flatMap_congr fun rule _ => ?_
  rw [itemsOfRule, itemsOfRule, List.map_filterMap, Rule.rename, List.length_map]
  refine List.filterMap_congr fun position _ => ?_
  exact rules.item?_rename f rule position

theorem itemsAt_rename (symbol : S) :
    (rules.rename f).itemsAt (f symbol) = (rules.itemsAt symbol).map (Item.rename f) := by
  have same : (fun item : Item T => decide (item.symbol? = some (f symbol))) ∘ Item.rename f =
      fun item : Item S => decide (item.symbol? = some symbol) := by
    funext item
    rw [Function.comp, Item.symbol?_rename]
    exact decide_eq_decide.2 f.map_eq_some_apply
  rw [itemsAt, itemsAt, items_rename, List.filter_map, same]

theorem acceptsExplicitly_rename : (rules.rename f).acceptsExplicitly = rules.acceptsExplicitly := by
  rw [acceptsExplicitly, acceptsExplicitly, items_rename, List.any_map]
  rfl

end RuleSet

/-! ## §5. Renamed tables. -/

namespace DecisionTable

/-- The table of the renamed rules. -/
def rename (table : DecisionTable S) : DecisionTable T :=
  ofRuleSet (table.rules.rename f)

/-- Building from renamed rules fails for the same reason or gives the renamed table. -/
theorem build_rename (rules : List (Rule S)) :
    build (rules.map (Rule.rename f)) = (build rules).map (rename f) := by
  rw [build, build, RuleSet.ofRules_rename]
  cases RuleSet.ofRules rules with
  | error error => rfl
  | ok set => rfl

variable (table : DecisionTable S)

@[simp]
theorem start_rename : (table.rename f).start = f table.start :=
  table.rules.start_rename f

@[simp]
theorem first_rename (symbol : S) : (table.rename f).first (f symbol) = (table.first symbol).rename f :=
  table.rules.first_rename f symbol

@[simp]
theorem items_rename (symbol : S) :
    (table.rename f).items (f symbol) = (table.items symbol).map (Item.rename f) := by
  rw [items_eq, items_eq]
  exact table.rules.itemsAt_rename f symbol

@[simp]
theorem followers_rename (below : Option S) :
    (table.rename f).followers (below.map f) = (table.followers below).rename f := by
  rw [followers_eq, followers_eq]
  cases below with
  | none => exact table.rules.bottoms_rename f
  | some symbol => exact table.rules.successors_rename f symbol

@[simp]
theorem canFollow_rename (below : Option S) (top : S) :
    (table.rename f).canFollow (below.map f) (f top) = table.canFollow below top := by
  rw [canFollow, canFollow, followers_rename]
  exact decide_eq_decide.2 (SymbolSet.apply_mem_rename f)

@[simp]
theorem acceptsExplicitly_rename : (table.rename f).acceptsExplicitly = table.acceptsExplicitly := by
  rw [table.acceptsExplicitly_eq]
  exact table.rules.acceptsExplicitly_rename f

end DecisionTable

end ShiftReduce
