/-
  ShiftReduce.Proofs.Tree.Nodes
  ────────────────────────────────
  **THE NODES AND THE LEAVES OF A TREE, BY RECURSION ON THE TREE.**

  The walk keeps a list of subtrees still to visit; here it is shown to be the
  pre-order traversal, so that statements about all nodes or all leaves of a
  tree can be proved by induction on the tree.

  Main statements: `walk_eq_preorder` and `nodes_node`, for the leaves `leaves_node`,
  and for their labels `yield_leaf` and `yield_node`.
-/
import Mathlib.Algebra.GroupWithZero.Nat
import Mathlib.Data.List.Basic
import ShiftReduce.Tree

namespace ShiftReduce.Tree

variable {α β : Type}

/-! ## §1. Induction on trees. -/

/-- What holds of a node whenever it holds of its children holds of every tree. -/
theorem induct {motive : Tree α → Prop}
    (node : ∀ label children, (∀ child ∈ children, motive child) → motive (.node label children))
    (tree : Tree α) : motive tree := by
  refine Tree.rec (motive_1 := motive) (motive_2 := fun trees => ∀ tree ∈ trees, motive tree)
    ?_ ?_ ?_ tree
  · exact node
  · intro tree mem
    exact absurd mem List.not_mem_nil
  · intro first rest hfirst hrest tree mem
    rcases List.mem_cons.1 mem with rfl | mem
    · exact hfirst
    · exact hrest tree mem

@[simp]
theorem label_node (label : α) (children : List (Tree α)) : (node label children).label = label := rfl

@[simp]
theorem children_node (label : α) (children : List (Tree α)) :
    (node label children).children = children := rfl

theorem eq_node (tree : Tree α) : tree = node tree.label tree.children := by
  cases tree
  rfl

/-! ## §2. Sizes and maps of several trees. -/

theorem sizeAll_eq (trees : List (Tree α)) : sizeAll trees = (trees.map size).sum := by
  induction trees with
  | nil => rfl
  | cons tree rest ih =>
    rw [sizeAll, ih, List.map_cons, List.sum_cons]

theorem size_node (label : α) (children : List (Tree α)) :
    (node label children).size = 1 + (children.map size).sum := by
  rw [size, sizeAll_eq]

theorem size_pos (tree : Tree α) : 0 < tree.size := by
  cases tree
  rw [size_node]
  omega

theorem mapAll_eq (f : α → β) (trees : List (Tree α)) : mapAll f trees = trees.map (map f) := by
  induction trees with
  | nil => rfl
  | cons tree rest ih =>
    rw [mapAll, ih, List.map_cons]

theorem map_node (f : α → β) (label : α) (children : List (Tree α)) :
    (node label children).map f = node (f label) (children.map (map f)) := by
  rw [map, mapAll_eq]

@[simp]
theorem label_map (f : α → β) (tree : Tree α) : (tree.map f).label = f tree.label := by
  cases tree
  rfl

theorem size_map (f : α → β) (tree : Tree α) : (tree.map f).size = tree.size := by
  induction tree using induct with
  | node label children ih =>
    rw [map_node, size_node, size_node, List.map_map]
    congr 2
    exact List.map_congr_left ih

theorem map_id : map (id : α → α) = id := by
  funext tree
  induction tree using induct with
  | node label children ih =>
    rw [map_node, List.map_congr_left ih, List.map_id]
    rfl

theorem map_map {γ : Type} (g : β → γ) (f : α → β) (tree : Tree α) :
    (tree.map f).map g = tree.map (g ∘ f) := by
  induction tree using induct with
  | node label children ih =>
    rw [map_node, map_node, map_node, List.map_map]
    exact congrArg (node (g (f label))) (List.map_congr_left ih)

/-- A map that keeps labels apart keeps trees apart. -/
theorem map_injective {f : α → β} (injective : Function.Injective f) : Function.Injective (map f) := by
  intro tree
  induction tree using induct with
  | node label children ih =>
    intro other same
    obtain ⟨label', others⟩ := other
    rw [map_node, map_node] at same
    injection same with sameLabel sameChildren
    have lengths : children.length = others.length := by
      simpa using congrArg List.length sameChildren
    have sameAt : children = others := by
      refine List.ext_getElem lengths fun index here _ => ?_
      refine ih _ (List.getElem_mem here) ?_
      have images := List.getElem_of_eq sameChildren (by rwa [List.length_map])
      rwa [List.getElem_map, List.getElem_map] at images
    rw [injective sameLabel, sameAt]

/-! ## §3. The walk is the pre-order traversal. -/

mutual

/-- The nodes in pre-order, each with its depth; the root has the given one. -/
def preorder : Nat → Tree α → List (Nat × Tree α)
  | depth, node label children => (depth, node label children) :: preorderAll (depth + 1) children

/-- The nodes of several trees, one tree after the other. -/
def preorderAll : Nat → List (Tree α) → List (Nat × Tree α)
  | _, [] => []
  | depth, tree :: rest => preorder depth tree ++ preorderAll depth rest

end

theorem preorderAll_eq (depth : Nat) (trees : List (Tree α)) :
    preorderAll depth trees = trees.flatMap (preorder depth) := by
  induction trees with
  | nil => rfl
  | cons tree rest ih =>
    rw [preorderAll, ih, List.flatMap_cons]

/-- The subtrees still to visit are traversed one after the other, one node in each step. -/
theorem walkFrom_eq_take (steps : Nat) (entries : List (Nat × Tree α)) :
    walkFrom steps entries =
      (entries.flatMap fun entry => preorder entry.1 entry.2).take steps := by
  induction steps generalizing entries with
  | zero => rw [walkFrom, List.take_zero]
  | succ steps ih =>
    match entries with
    | [] => rfl
    | (depth, node label children) :: rest =>
      -- One step replaces a node on the list by its children.
      rw [walkFrom, children_node, ih, List.flatMap_cons, preorder, preorderAll_eq,
        List.flatMap_append, List.flatMap_map, List.cons_append, List.take_succ_cons]

theorem length_preorder (tree : Tree α) (depth : Nat) : (preorder depth tree).length = tree.size := by
  induction tree using induct generalizing depth with
  | node label children ih =>
    rw [preorder, preorderAll_eq, List.length_cons, List.length_flatMap, size_node, Nat.add_comm 1,
      List.map_congr_left fun child mem => ih child mem (depth + 1)]

/-- There are steps enough for all the nodes. -/
theorem walk_eq_preorder (tree : Tree α) : tree.walk = preorder 0 tree := by
  rw [walk, walkFrom_eq_take, List.flatMap_singleton]
  exact List.take_of_length_le (Nat.le_of_eq (length_preorder tree 0))

/-! ## §4. Nodes. -/

/-- Every node in pre-order, as the subtree it roots. -/
def nodes (tree : Tree α) : List (Tree α) :=
  tree.walk.map Prod.snd

/-- Which nodes there are does not depend on the depths they are given. -/
theorem preorder_map_snd (tree : Tree α) (depth : Nat) :
    (preorder depth tree).map Prod.snd = tree.nodes := by
  rw [nodes, walk_eq_preorder]
  -- The other depth varies along the induction as well.
  generalize 0 = other
  induction tree using induct generalizing depth other with
  | node label children ih =>
    rw [preorder, preorder, List.map_cons, List.map_cons, preorderAll_eq, preorderAll_eq,
      List.map_flatMap, List.map_flatMap]
    congr 1
    exact List.flatMap_congr fun child mem => ih child mem _ _

theorem nodes_node (label : α) (children : List (Tree α)) :
    (node label children).nodes = node label children :: children.flatMap nodes := by
  rw [← preorder_map_snd _ 0, preorder, List.map_cons, preorderAll_eq, List.map_flatMap]
  congr 1
  exact List.flatMap_congr fun child _ => preorder_map_snd child 1

theorem mem_nodes_node {label : α} {children : List (Tree α)} {tree : Tree α} :
    tree ∈ (node label children).nodes ↔
      tree = node label children ∨ ∃ child ∈ children, tree ∈ child.nodes := by
  rw [nodes_node, List.mem_cons, List.mem_flatMap]

theorem self_mem_nodes (tree : Tree α) : tree ∈ tree.nodes := by
  cases tree
  exact mem_nodes_node.2 (.inl rfl)

/-- The node at the end of a path, which says for each node on the way to which
child it goes on. -/
def at? : Tree α → List Nat → Option (Tree α)
  | tree, [] => some tree
  | tree, index :: path => tree.children[index]?.bind fun child => child.at? path

/-! ## §5. The leaves and their labels. -/

/-- The labels of the leaves, from the left to the right. -/
def yield (tree : Tree α) : List α :=
  tree.leaves.map label

theorem leaves_eq (tree : Tree α) : tree.leaves = tree.nodes.filter isLeaf := rfl

@[simp]
theorem yield_leaf (label : α) : (node label []).yield = [label] := by
  rw [yield, leaves_eq, nodes_node]
  rfl

/-- The leaves of an inner node are those of its children, in their order. -/
theorem leaves_node (label : α) {children : List (Tree α)} (h : children ≠ []) :
    (node label children).leaves = children.flatMap leaves := by
  -- The node itself is no leaf, so the filter passes over it.
  have inner : isLeaf (node label children) = false := by
    cases children with
    | nil => exact absurd rfl h
    | cons _ _ => rfl
  rw [leaves_eq, nodes_node, List.filter_cons_of_neg (by simp [inner]), List.filter_flatMap]
  rfl

theorem yield_node (label : α) {children : List (Tree α)} (h : children ≠ []) :
    (node label children).yield = children.flatMap yield := by
  rw [yield, leaves_node label h, List.map_flatMap]
  rfl

/-- The leaves of a tree whose labels are changed are changed alike. -/
theorem yield_map (f : α → β) (tree : Tree α) : (tree.map f).yield = tree.yield.map f := by
  induction tree using induct with
  | node label children ih =>
    rw [map_node]
    cases children with
    | nil => rw [List.map_nil, yield_leaf, yield_leaf, List.map_singleton]
    | cons child rest =>
      have inner : (child :: rest).map (map f) ≠ [] := List.cons_ne_nil _ _
      rw [yield_node _ inner, yield_node _ (List.cons_ne_nil child rest), List.flatMap_map,
        List.map_flatMap]
      exact List.flatMap_congr ih

theorem yield_ne_nil (tree : Tree α) : tree.yield ≠ [] := by
  induction tree using induct with
  | node label children ih =>
    cases children with
    | nil => simp
    | cons child rest =>
      rw [yield_node label (List.cons_ne_nil child rest), List.flatMap_cons]
      intro h
      exact ih child (by simp) (List.append_eq_nil_iff.1 h).1

end ShiftReduce.Tree
