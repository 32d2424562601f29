/-
  ShiftReduce.Proofs.Tree.Parse
  ────────────────────────────────
  **PARSE TREES THAT ARE BUILT BY RULES.**

  An inner node is built by a rule if it is what a reduction by the rule makes
  of its children: the kinds of the children are the right-hand side, and the
  node has the left-hand side as its kind, no text, and the position of its
  first child.

  Main statements: `BuiltBy.of_applies` and `BuiltBy.induct`, and `opens_first`:
  what a tree stands for can begin with its first leaf.
-/
import Mathlib.Data.List.Forall2
import ShiftReduce.Proofs.Grammar.LeftCorners
import ShiftReduce.Proofs.Tree.Nodes
import ShiftReduce.Token

namespace ShiftReduce

variable {S : Type}

/-! ## §1. Parse trees. -/

namespace ParseTree

/-- What kind of symbol the tree stands for. -/
def kind (tree : ParseTree S) : S :=
  tree.label.kind

/-- The node of kind `symbol` over the children, beginning where the first one begins. -/
def ofChildren (symbol : S) (children : List (ParseTree S)) : ParseTree S :=
  .node
    { kind := symbol
      value := ""
      position := (children.head?.map fun child => child.label.position).getD 0 }
    children

/-- The root is what a reduction by the rule makes of its children. -/
def Applies (rule : Rule S) (tree : ParseTree S) : Prop :=
  tree = ofChildren rule.lhs tree.children ∧ tree.children.map kind = rule.rhs

/-- Every inner node is what a reduction by one of the rules makes of its children. -/
def BuiltBy (rules : List (Rule S)) (tree : ParseTree S) : Prop :=
  ∀ node ∈ tree.nodes, node.children ≠ [] → ∃ rule ∈ rules, Applies rule node

instance [DecidableEq S] (rule : Rule S) (tree : ParseTree S) : Decidable (Applies rule tree) :=
  inferInstanceAs (Decidable (_ ∧ _))

instance [DecidableEq S] (rules : List (Rule S)) (tree : ParseTree S) :
    Decidable (BuiltBy rules tree) :=
  inferInstanceAs (Decidable (∀ node ∈ tree.nodes, node.children ≠ [] →
    ∃ rule ∈ rules, Applies rule node))

@[simp]
theorem kind_ofChildren (symbol : S) (children : List (ParseTree S)) :
    kind (ofChildren symbol children) = symbol := rfl

@[simp]
theorem children_ofChildren (symbol : S) (children : List (ParseTree S)) :
    (ofChildren symbol children).children = children := rfl

/-- Without the first leaf there are the nodes of the children and the root, one more. -/
theorem size_ofChildren (symbol : S) (child : ParseTree S) (others : List (ParseTree S)) :
    (ofChildren symbol (child :: others)).size - 1 = ((child :: others).map Tree.size).sum - 1 + 1 := by
  have positive := child.size_pos
  rw [ofChildren, Tree.size_node, List.map_cons, List.sum_cons]
  omega

theorem applies_ofChildren {rule : Rule S} {children : List (ParseTree S)}
    (h : children.map kind = rule.rhs) : Applies rule (ofChildren rule.lhs children) :=
  ⟨rfl, h⟩

theorem Applies.kind_eq {rule : Rule S} {tree : ParseTree S} (applies : Applies rule tree) :
    kind tree = rule.lhs :=
  congrArg kind applies.1

/-! ## §2. What is built by rules. -/

variable {rules others : List (Rule S)}

theorem builtBy_leaf (lexeme : Lexeme S) : BuiltBy rules (.node lexeme []) := by
  intro node mem inner
  rcases Tree.mem_nodes_node.1 mem with rfl | ⟨child, none, _⟩
  · exact absurd rfl inner
  · exact absurd none List.not_mem_nil

theorem BuiltBy.mono {tree : ParseTree S} (h : rules ⊆ others) (built : BuiltBy rules tree) :
    BuiltBy others tree := by
  intro node mem inner
  obtain ⟨rule, hrule, applies⟩ := built node mem inner
  exact ⟨rule, h hrule, applies⟩

theorem BuiltBy.child {tree child : ParseTree S} (built : BuiltBy rules tree)
    (mem : child ∈ tree.children) : BuiltBy rules child := by
  intro node hnode
  refine built node ?_
  rw [Tree.eq_node tree]
  exact Tree.mem_nodes_node.2 (.inr ⟨child, mem, hnode⟩)

theorem BuiltBy.root {tree : ParseTree S} (built : BuiltBy rules tree) (inner : tree.children ≠ []) :
    ∃ rule ∈ rules, Applies rule tree :=
  built tree tree.self_mem_nodes inner

/-- A tree is built by rules if its root and all the subtrees under it are. -/
theorem BuiltBy.of_applies {rule : Rule S} {tree : ParseTree S} (hrule : rule ∈ rules)
    (applies : Applies rule tree) (built : ∀ child ∈ tree.children, BuiltBy rules child) :
    BuiltBy rules tree := by
  intro node mem inner
  rw [Tree.eq_node tree] at mem
  rcases Tree.mem_nodes_node.1 mem with root | ⟨child, hchild, hnode⟩
  · rw [root, ← Tree.eq_node tree]
    exact ⟨rule, hrule, applies⟩
  · exact built child hchild node hnode inner

/-- Induction on a tree that is built by rules: leaves, and nodes over trees. -/
theorem BuiltBy.induct {motive : ParseTree S → Prop} (leaf : ∀ lexeme, motive (.node lexeme []))
    (node : ∀ rule ∈ rules, ∀ first rest, (first :: rest).map kind = rule.rhs →
      (∀ child ∈ first :: rest, BuiltBy rules child ∧ motive child) →
        motive (ofChildren rule.lhs (first :: rest)))
    {tree : ParseTree S} (built : BuiltBy rules tree) : motive tree := by
  induction tree using Tree.induct with
  | node label children ih =>
    cases children with
    | nil => exact leaf label
    | cons first rest =>
      obtain ⟨rule, hrule, same, kinds⟩ := built.root (List.cons_ne_nil first rest)
      rw [same]
      refine node rule hrule first rest kinds ?_
      intro child mem
      have hchild : BuiltBy rules child := built.child mem
      exact ⟨hchild, ih child mem hchild⟩

/-- Rules for a symbol that the others do not mention have built nothing below any
other symbol. -/
theorem BuiltBy.without {symbol : S} (rest : ∀ rule ∈ others, rule.lhs = symbol ∨ rule ∈ rules)
    (fresh : ∀ rule ∈ rules, symbol ∉ rule.rhs) {tree : ParseTree S} (built : BuiltBy others tree)
    (other : kind tree ≠ symbol) : BuiltBy rules tree := by
  refine BuiltBy.induct (motive := fun tree => kind tree ≠ symbol → BuiltBy rules tree) ?_ ?_ built
    other
  · intro lexeme _
    exact builtBy_leaf lexeme
  · intro rule hrule first siblings kinds ih other
    have kept : rule ∈ rules := (rest rule hrule).resolve_left other
    refine .of_applies kept (applies_ofChildren kinds) ?_
    intro child mem
    refine (ih child mem).2 fun same => fresh rule kept ?_
    rw [← kinds, ← same]
    exact List.mem_map.2 ⟨child, mem, rfl⟩

/-! ## §3. The first leaf. -/

/-- The kind of an inner node can begin with the kind of the first leaf. -/
theorem opens_first {tree : ParseTree S} (built : BuiltBy rules tree) {first : Lexeme S}
    {rest : List (Lexeme S)} (yield : tree.yield = first :: rest) :
    tree = .node first [] ∨ Relation.TransGen (Opens rules) (kind tree) first.kind := by
  refine BuiltBy.induct (motive := fun tree => ∀ rest, tree.yield = first :: rest →
    tree = .node first [] ∨ Relation.TransGen (Opens rules) (kind tree) first.kind) ?_ ?_ built rest
    yield
  · intro lexeme rest yield
    rw [Tree.yield_leaf, List.cons.injEq] at yield
    exact .inl (by rw [yield.1])
  · intro rule hrule child others kinds ih rest yield
    rw [ofChildren, Tree.yield_node _ (List.cons_ne_nil child others), List.flatMap_cons] at yield
    -- The first leaf of the node is the first leaf of its first child.
    have opens : Opens rules rule.lhs (kind child) := ⟨rule, hrule, rfl, by rw [← kinds]; rfl⟩
    refine .inr ?_
    cases hchild : child.yield with
    | nil => exact absurd hchild child.yield_ne_nil
    | cons lexeme leaves =>
      rw [hchild, List.cons_append, List.cons.injEq] at yield
      rcases (ih child (by simp)).2 leaves (by rw [hchild, yield.1]) with same | path
      · rw [same] at opens
        exact .single opens
      · exact .head opens path

/-- A leaf is the whole tree, or stands on the right-hand side of a rule. -/
theorem BuiltBy.leaf {tree : ParseTree S} (built : BuiltBy rules tree) {leaf : Lexeme S}
    (mem : leaf ∈ tree.yield) : tree = .node leaf [] ∨ ∃ rule ∈ rules, leaf.kind ∈ rule.rhs := by
  refine BuiltBy.induct (motive := fun tree => leaf ∈ tree.yield →
    tree = .node leaf [] ∨ ∃ rule ∈ rules, leaf.kind ∈ rule.rhs) ?_ ?_ built mem
  · intro lexeme mem
    rw [Tree.yield_leaf, List.mem_singleton] at mem
    exact .inl (by rw [mem])
  · intro rule hrule first rest kinds ih mem
    rw [ofChildren, Tree.yield_node _ (List.cons_ne_nil first rest), List.mem_flatMap] at mem
    obtain ⟨child, hchild, mem⟩ := mem
    rcases (ih child hchild).2 mem with rfl | found
    · exact .inr ⟨rule, hrule, kinds ▸ List.mem_map.2 ⟨_, hchild, rfl⟩⟩
    · exact .inr found

/-- A relation of symbols and words holds of a tree and its leaves if it holds of
single leaves, and if each rule carries it from its symbols to its left-hand side. -/
theorem BuiltBy.yields {stands : S → List S → Prop}
    (combine : ∀ rule ∈ rules, ∀ words, List.Forall₂ stands rule.rhs words → stands rule.lhs words.flatten)
    {tree : ParseTree S} (built : BuiltBy rules tree)
    (leaves : ∀ leaf ∈ tree.yield, stands leaf.kind [leaf.kind]) :
    stands (kind tree) (tree.yield.map Lexeme.kind) := by
  refine BuiltBy.induct (motive := fun tree => (∀ leaf ∈ tree.yield, stands leaf.kind [leaf.kind]) →
    stands (kind tree) (tree.yield.map Lexeme.kind)) ?_ ?_ built leaves
  · intro lexeme leaves
    rw [Tree.yield_leaf] at leaves ⊢
    exact leaves lexeme (List.mem_singleton.2 rfl)
  · intro rule hrule first rest kinds ih leaves
    rw [ofChildren, Tree.yield_node _ (List.cons_ne_nil first rest)] at leaves ⊢
    rw [List.map_flatMap, List.flatMap_def]
    refine combine rule hrule _ ?_
    rw [← kinds, List.forall₂_map_left_iff, List.forall₂_map_right_iff, List.forall₂_same]
    intro child mem
    exact (ih child mem).2 fun leaf hleaf => leaves leaf (List.mem_flatMap.2 ⟨child, mem, hleaf⟩)

end ParseTree

/-! ## §4. Tokens as parse trees. -/

namespace Token

@[simp]
theorem kind_erase (token : Token S) : ParseTree.kind token.erase = token.kind := by
  rw [ParseTree.kind, erase, Tree.label_map]
  rfl

theorem map_kind_erase (tokens : List (Token S)) :
    (tokens.map erase).map ParseTree.kind = tokens.map kind := by
  rw [List.map_map]
  exact List.map_congr_left fun token _ => kind_erase token

theorem erase_leaf (lexeme : LinkedLexeme S) :
    erase (.node lexeme []) = .node lexeme.toLexeme [] := by
  rw [erase, Tree.map_node, List.map_nil]

/-- A reduction puts a node over the parse trees. -/
theorem erase_reduce (symbol : S) (children : List (Token S)) :
    (reduce symbol children).erase = ParseTree.ofChildren symbol (children.map erase) := by
  rw [erase, reduce, Tree.map_node, ParseTree.ofChildren]
  congr 2
  cases children with
  | nil => rfl
  | cons first rest =>
    simp only [List.head?_cons, List.map_cons, Option.map_some, Option.getD_some, Tree.label_map,
      erase]
    rfl

/-- The leaves of the node that a reduction makes are those of its children. -/
theorem yield_reduce (symbol : S) {children : List (Token S)} (some : children ≠ []) :
    (reduce symbol children).erase.yield = children.flatMap fun token => token.erase.yield := by
  have some : children.map erase ≠ [] := by
    intro none
    exact some (List.map_eq_nil_iff.1 none)
  rw [erase_reduce, ParseTree.ofChildren, Tree.yield_node _ some, List.flatMap_map]

end Token

/-- A token of the stream is a leaf that knows whether another one follows. -/
theorem TokenStream.get?_eq_some {stream : TokenStream S} {index : Nat} {token : Token S}
    (h : stream.get? index = some token) :
    ∃ lexeme, stream.lexemes[index]? = some lexeme ∧ token.erase = .node lexeme [] ∧
      token.label.next = if index + 1 < stream.size then some (index + 1) else none := by
  obtain ⟨lexeme, hlexeme, rfl⟩ := Option.map_eq_some_iff.1 h
  exact ⟨lexeme, hlexeme, Token.erase_leaf _, rfl⟩

end ShiftReduce
