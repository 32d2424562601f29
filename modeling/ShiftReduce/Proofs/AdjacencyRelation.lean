/-
  ShiftReduce.Proofs.AdjacencyRelation
  ────────────────────────────────
  **THE ADJACENCY RELATION IS THAT OF THE GRAMMAR.**

  What may sit right above a symbol on the stack is collected from neighbours in
  rules and from left corners.  It is what comes first in anything that a
  neighbour derives, and so in a whole tree every node may sit above the nearest
  tree to its left: the left sibling of the node itself, or of the nearest node
  above it that has one.

  Main statement: `adjacency_of_derivations`.
-/
import ShiftReduce.Proofs.ExactPrediction
import ShiftReduce.Proofs.Grammar.Adjacency
import ShiftReduce.Proofs.Grammar.Build
import ShiftReduce.Proofs.Grammar.Derivation
import ShiftReduce.Proofs.Grammar.Traversal
import ShiftReduce.Proofs.Tree.Parse

namespace ShiftReduce

open Relation

variable {S : Type}

/-! ## §1. Trees over instances of rules. -/

namespace ParseTree

/-- Every inner node has the left-hand side of a rule as its kind, and children
of the kinds on its right-hand side; texts and positions do not matter. -/
def Conforms (rules : List (Rule S)) (tree : ParseTree S) : Prop :=
  ∀ node ∈ tree.nodes, node.children ≠ [] →
    ∃ rule ∈ rules, rule.lhs = kind node ∧ rule.rhs = node.children.map kind

instance [DecidableEq S] (rules : List (Rule S)) (tree : ParseTree S) : Decidable (Conforms rules tree) :=
  inferInstanceAs (Decidable (∀ node ∈ tree.nodes, node.children ≠ [] →
    ∃ rule ∈ rules, rule.lhs = kind node ∧ rule.rhs = node.children.map kind))

variable {rules : List (Rule S)} {tree : ParseTree S}

theorem Conforms.child {child : ParseTree S} (conforms : Conforms rules tree) (mem : child ∈ tree.children) :
    Conforms rules child := by
  intro node hnode
  refine conforms node ?_
  rw [Tree.eq_node tree]
  exact Tree.mem_nodes_node.2 (.inr ⟨child, mem, hnode⟩)

/-- The children of a node stand in the places of a right-hand side. -/
theorem Conforms.place {child : ParseTree S} (conforms : Conforms rules tree)
    (mem : child ∈ tree.children) :
    ∃ rule ∈ rules, rule.lhs = kind tree ∧
      ∀ index : Nat, rule.rhs[index]? = tree.children[index]?.map kind := by
  obtain ⟨rule, hrule, hlhs, hrhs⟩ :=
    conforms tree tree.self_mem_nodes (List.ne_nil_of_mem mem)
  refine ⟨rule, hrule, hlhs, ?_⟩
  intro index
  rw [hrhs, List.getElem?_map]

theorem Conforms.opens {child : ParseTree S} (conforms : Conforms rules tree)
    (first : tree.children[0]? = some child) :
    Opens rules (kind tree) (kind child) := by
  obtain ⟨rule, hrule, hlhs, places⟩ := conforms.place (List.mem_of_getElem? first)
  refine ⟨rule, hrule, hlhs, ?_⟩
  rw [List.head?_eq_getElem?, places, first, Option.map_some]

theorem Conforms.adjacent {sibling child : ParseTree S} {index : Nat} (conforms : Conforms rules tree)
    (before : tree.children[index]? = some sibling) (after : tree.children[index + 1]? = some child) :
    Adjacent rules (kind sibling) (kind child) := by
  obtain ⟨rule, hrule, _, places⟩ := conforms.place (List.mem_of_getElem? after)
  refine ⟨rule, hrule, index, ?_, ?_⟩
  · rw [places, before, Option.map_some]
  · rw [places, after, Option.map_some]

end ParseTree

variable [DecidableEq S] [GrammarSymbol S]

namespace DecisionTable

variable {rules : List (Rule S)} {table : DecisionTable S}

/-! ## §2. The relation of a table that has been built. -/

theorem opens_iff_of_build (built : build rules = .ok table) {symbol corner : S} :
    Opens table.rules.toList symbol corner ↔ Opens rules symbol corner := by
  simp only [Opens, mem_rules_of_build built]

theorem adjacent_iff_of_build (built : build rules = .ok table) {symbol next : S} :
    Adjacent table.rules.toList symbol next ↔ Adjacent rules symbol next := by
  simp only [Adjacent, mem_rules_of_build built]

/-- Openings in the table are the beginnings of what is derived from the rules
at the left end. -/
theorem reflTransGen_opens_iff_of_build (built : build rules = .ok table) {symbol corner : S} :
    ReflTransGen (Opens table.rules.toList) symbol corner ↔
      ∃ rest, ReflTransGen (ExpandsFirst rules) [symbol] (corner :: rest) := by
  have nonempty : ∀ rule ∈ rules, rule.rhs ≠ [] := by
    intro rule hrule
    exact table.rules.rhs_ne_nil rule ((mem_rules_of_build built).2 hrule)
  have same : Opens table.rules.toList = Opens rules := by
    funext symbol corner
    exact propext (opens_iff_of_build built)
  rw [same, reflTransGen_expandsFirst_iff nonempty]

/-! ## §3. Nodes of trees. -/

/-- Below a node that may sit somewhere, everything at its left end may sit
there too, and every other node above the left sibling of the nearest node on
the way that has one. -/
theorem canFollow_at (built : build rules = .ok table) {tree node : ParseTree S} {path : List Nat}
    {below : Option S} (conforms : ParseTree.Conforms rules tree)
    (follows : table.canFollow below (ParseTree.kind tree) = true) (found : tree.at? path = some node) :
    (∃ depth, path = List.replicate depth 0 ∧ table.canFollow below (ParseTree.kind node) = true) ∨
      ∃ before index depth sibling, path = before ++ (index + 1) :: List.replicate depth 0 ∧
        tree.at? (before ++ [index]) = some sibling ∧
          table.canFollow (some (ParseTree.kind sibling)) (ParseTree.kind node) = true := by
  -- By induction on the path; what the root may sit on changes with the child it goes on to.
  induction path generalizing tree below with
  | nil =>
    cases found
    exact .inl ⟨0, rfl, follows⟩
  | cons index path ih =>
    obtain ⟨child, hchild, within⟩ := Option.bind_eq_some_iff.1 found
    have deeper := conforms.child (List.mem_of_getElem? hchild)
    cases index with
    | zero =>
      have opens := (opens_iff_of_build built).2 (conforms.opens hchild)
      rcases ih deeper (canFollow_of_opens follows opens) within with spine | other
      · obtain ⟨depth, rfl, follows⟩ := spine
        exact .inl ⟨depth + 1, rfl, follows⟩
      · obtain ⟨before, index, depth, sibling, rfl, hsibling, follows⟩ := other
        refine .inr ⟨0 :: before, index, depth, sibling, rfl, ?_, follows⟩
        exact Option.bind_eq_some_iff.2 ⟨child, hchild, hsibling⟩
    | succ index =>
      -- The child before it is the nearest tree to the left of its own left end.
      obtain ⟨sibling, hsibling⟩ : ∃ sibling, tree.children[index]? = some sibling := by
        have bound := (List.getElem?_eq_some_iff.1 hchild).1
        exact ⟨_, List.getElem?_eq_getElem (Nat.lt_of_succ_lt bound)⟩
      have adjacent := (adjacent_iff_of_build built).2 (conforms.adjacent hsibling hchild)
      rcases ih deeper (canFollow_of_adjacent adjacent) within with spine | other
      · obtain ⟨depth, rfl, follows⟩ := spine
        refine .inr ⟨[], index, depth, sibling, rfl, ?_, follows⟩
        exact Option.bind_eq_some_iff.2 ⟨sibling, hsibling, rfl⟩
      · obtain ⟨before, deep, depth, sibling, rfl, hsibling, follows⟩ := other
        refine .inr ⟨(index + 1) :: before, deep, depth, sibling, rfl, ?_, follows⟩
        exact Option.bind_eq_some_iff.2 ⟨child, hchild, hsibling⟩

end DecisionTable

/-- In a table that has been built, a symbol may sit right above another one if and
only if some rule has that one right before a symbol that derives, by zero or more
rewrites of the leftmost symbol, a string that begins with it; at the bottom may sit
what a string begins with that the start symbol so derives.  What may sit somewhere is
listed in strictly ascending order.  In a tree of instances of rules over the start
symbol, a node at the left end may sit at the bottom.  The path of any other node turns
last away from the left end at the nearest node, itself or above it, that has a left
sibling, and the node may sit right above this sibling. -/
theorem adjacency_of_derivations {rules : List (Rule S)} {table : DecisionTable S}
    (built : DecisionTable.build rules = .ok table) :
    (∀ below top, table.canFollow (some below) top = true ↔
      ∃ next, Adjacent rules below next ∧
        ∃ rest, ReflTransGen (ExpandsFirst rules) [next] (top :: rest)) ∧
    (∀ top, table.canFollow none top = true ↔
      ∃ rest, ReflTransGen (ExpandsFirst rules) [table.start] (top :: rest)) ∧
    (∀ below, Ascending (table.followers below).toList ∧ (table.followers below).toList.Nodup ∧
      ∀ top, top ∈ (table.followers below).toList ↔ table.canFollow below top = true) ∧
    ∀ tree : ParseTree S, ParseTree.Conforms rules tree → ParseTree.kind tree = table.start →
      ∀ path node, tree.at? path = some node →
        (∃ depth, path = List.replicate depth 0 ∧
          table.canFollow none (ParseTree.kind node) = true) ∨
        ∃ before index depth sibling, path = before ++ (index + 1) :: List.replicate depth 0 ∧
          tree.at? (before ++ [index]) = some sibling ∧
            table.canFollow (some (ParseTree.kind sibling)) (ParseTree.kind node) = true := by
  refine ⟨?_, ?_, ?_, ?_⟩
  · intro below top
    simp only [DecisionTable.canFollow_some_iff, DecisionTable.adjacent_iff_of_build built,
      DecisionTable.reflTransGen_opens_iff_of_build built]
  · intro top
    rw [DecisionTable.canFollow_none_iff, DecisionTable.reflTransGen_opens_iff_of_build built]
  · intro below
    refine ⟨(table.followers below).ascending, (table.followers below).nodup_toList, ?_⟩
    intro top
    rw [DecisionTable.canFollow_iff, SymbolSet.mem_def]
  · intro tree conforms root path node found
    refine DecisionTable.canFollow_at built conforms ?_ found
    rw [root]
    exact DecisionTable.canFollow_none_iff.2 .refl

/-- The tree of `n + n`. -/
def sumTree : ParseTree Symbol :=
  let leaf (text : String) (index : Nat) : ParseTree Symbol := .node ⟨.terminal text, text, index⟩ []
  let number (index : Nat) := ParseTree.ofChildren (.nonTerminal "T") [leaf "n" index]
  ParseTree.ofChildren (.nonTerminal "E")
    [ParseTree.ofChildren (.nonTerminal "E") [number 0], leaf "+" 1, number 2]

/-- What `E` derives can begin with a number.  In the tree of `n + n` the first number
may sit at the bottom, and the last one, which has no sibling itself, above `+`. -/
theorem adjacency_of_derivations_sum :
    DecisionTable.build sumRules = .ok sumTable ∧
    (∃ rest, ReflTransGen (ExpandsFirst sumRules) [.nonTerminal "E"] (.terminal "n" :: rest)) ∧
    (∃ first, sumTree.at? [0, 0, 0] = some first ∧
      sumTable.canFollow none (ParseTree.kind first) = true) ∧
    ∃ last sibling, sumTree.at? [2, 0] = some last ∧ sumTree.at? [1] = some sibling ∧
      sumTable.canFollow (some (ParseTree.kind sibling)) (ParseTree.kind last) = true := by
  have built : DecisionTable.build sumRules = .ok sumTable := sumTable.build_rules
  obtain ⟨_, bottom, _, nodes⟩ := adjacency_of_derivations built
  have conforms : ParseTree.Conforms sumRules sumTree := by decide +kernel
  refine ⟨built, (bottom (.terminal "n")).1 (by decide +kernel), ?_, ?_⟩
  · rcases nodes sumTree conforms rfl [0, 0, 0] _ rfl with ⟨_, _, follows⟩ | other
    · exact ⟨_, rfl, follows⟩
    · obtain ⟨before, index, _, _, path, _⟩ := other
      -- No index on this path is above zero.
      have turn : index + 1 ∈ [0, 0, 0] := by
        rw [path]
        exact List.mem_append_right before List.mem_cons_self
      simp at turn
  · rcases nodes sumTree conforms rfl [2, 0] _ rfl with ⟨_, path, _⟩ | other
    · have zero : 2 = 0 := List.eq_of_mem_replicate (path ▸ List.mem_cons_self)
      cases zero
    · obtain ⟨before, index, depth, sibling, path, hsibling, follows⟩ := other
      cases before with
      | nil =>
        obtain ⟨two, _⟩ := List.cons.inj path
        obtain rfl : index = 1 := by omega
        exact ⟨_, sibling, rfl, hsibling, follows⟩
      | cons _ before =>
        -- After the first index there is none above zero.
        have turn : index + 1 ∈ [0] := by
          rw [(List.cons.inj path).2]
          exact List.mem_append_right before List.mem_cons_self
        simp at turn

end ShiftReduce
