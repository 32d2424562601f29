/-
  ShiftReduce.Proofs.TreeWalk
  ────────────────────────────────
  **THE WALK THROUGH A TREE SAYS ALL ABOUT THE TREE.**

  The walk comes to every node once, on the way of the recursive traversal, and
  knows how far it is from the root.  The path to a node is the list of the
  indices at which the way to it goes on, so the walk goes along all the paths,
  in the order of the dictionary.  What it gives of a node, the depth and the
  lexeme, is enough to build the tree again: read from the end, a node has those
  trees as its children that come right after it and lie deeper.

  Main statement: `walk_encodes_tree`.
-/
import ShiftReduce.Proofs.Tree.Nodes
import ShiftReduce.Token

namespace ShiftReduce

namespace Tree

variable {α β : Type}

/-! ## §1. Paths. -/

mutual

/-- The paths to the nodes, in pre-order. -/
def paths : Tree α → List (List Nat)
  | node _ children => [] :: pathsAll 0 children

/-- The paths to the nodes of several trees, which are children from the given index on. -/
def pathsAll : Nat → List (Tree α) → List (List Nat)
  | _, [] => []
  | index, tree :: rest => (paths tree).map (index :: ·) ++ pathsAll (index + 1) rest

end

theorem pathsAll_eq (index : Nat) (trees : List (Tree α)) :
    pathsAll index trees =
      (trees.zipIdx index).flatMap fun entry => entry.1.paths.map (entry.2 :: ·) := by
  induction trees generalizing index with
  | nil => rfl
  | cons tree rest ih => rw [pathsAll, ih, List.zipIdx_cons, List.flatMap_cons]

theorem paths_node (label : α) (children : List (Tree α)) :
    (node label children).paths =
      [] :: children.zipIdx.flatMap fun entry => entry.1.paths.map (entry.2 :: ·) := by
  rw [paths, pathsAll_eq]

theorem mem_paths {tree : Tree α} {path : List Nat} :
    path ∈ tree.paths ↔ (tree.at? path).isSome = true := by
  induction tree using induct generalizing path with
  | node label children ih =>
    rw [paths_node]
    cases path with
    | nil => simp [at?]
    | cons index path =>
      simp only [List.mem_cons, reduceCtorEq, false_or, List.mem_flatMap, List.mem_map, List.cons.injEq,
        Prod.exists, List.mem_zipIdx_iff_getElem?, at?, children_node]
      constructor
      · rintro ⟨child, place, hchild, other, mem, rfl, rfl⟩
        rw [hchild, Option.bind_some]
        exact (ih child (List.mem_of_getElem? hchild)).1 mem
      · intro h
        obtain ⟨node, hnode⟩ := Option.isSome_iff_exists.1 h
        obtain ⟨child, hchild, found⟩ := Option.bind_eq_some_iff.1 hnode
        refine ⟨child, index, hchild, path, (ih child (List.mem_of_getElem? hchild)).2 ?_, rfl, rfl⟩
        rw [found]
        rfl

/-- The paths are in the order of the dictionary, so none of them comes twice. -/
theorem pairwise_paths (tree : Tree α) : tree.paths.Pairwise (· < ·) := by
  induction tree using induct with
  | node label children ih =>
    have ascending : children.zipIdx.Pairwise fun first second => first.2 < second.2 := by
      have indices := List.pairwise_lt_range' (s := 0) (n := children.length)
      rw [← List.zipIdx_map_snd 0 children, List.pairwise_map] at indices
      exact indices
    rw [paths_node, List.pairwise_cons, List.pairwise_flatMap]
    refine ⟨?_, ?_, ascending.imp ?_⟩
    · intro path mem
      obtain ⟨entry, _, hpath⟩ := List.mem_flatMap.1 mem
      obtain ⟨rest, _, rfl⟩ := List.mem_map.1 hpath
      exact List.nil_lt_cons _ _
    · rintro ⟨child, index⟩ mem
      have earlier := ih child (List.fst_mem_of_mem_zipIdx mem)
      refine List.pairwise_map.2 (earlier.imp ?_)
      intro first second less
      exact List.cons_lt_cons_iff.2 (.inr ⟨rfl, less⟩)
    · intro first second less path hpath other hother
      obtain ⟨_, _, rfl⟩ := List.mem_map.1 hpath
      obtain ⟨_, _, rfl⟩ := List.mem_map.1 hother
      exact List.cons_lt_cons_iff.2 (.inl less)

/-- The traversal goes along the paths, and gives each node the length of its own as its depth. -/
theorem preorder_eq_paths (tree : Tree α) (depth : Nat) :
    (preorder depth tree).map some =
      tree.paths.map fun path => (tree.at? path).map fun node => (depth + path.length, node) := by
  induction tree using induct generalizing depth with
  | node label children ih =>
    have numbered : children.flatMap (preorder (depth + 1)) =
        children.zipIdx.flatMap fun entry => preorder (depth + 1) entry.1 := by
      conv_lhs => rw [← List.zipIdx_map_fst 0 children, List.flatMap_map]
    rw [preorder, preorderAll_eq, numbered, paths_node, List.map_cons, List.map_cons, List.map_flatMap,
      List.map_flatMap]
    congr 1
    refine List.flatMap_congr ?_
    rintro ⟨child, index⟩ mem
    have hchild : children[index]? = some child := List.mem_zipIdx_iff_getElem?.1 mem
    rw [ih child (List.mem_of_getElem? hchild), List.map_map]
    refine List.map_congr_left fun path _ => ?_
    -- The path through the child is one longer, and the child lies one deeper.
    simp only [Function.comp_apply, at?, children_node, hchild, Option.bind_some, List.length_cons,
      Nat.add_assoc, Nat.add_comm 1]

/-! ## §2. Leaves. -/

mutual

/-- The childless nodes, from the left to the right. -/
def fringe : Tree α → List (Tree α)
  | node label children =>
    if children.isEmpty then [node label children] else fringeAll children

/-- The childless nodes of several trees. -/
def fringeAll : List (Tree α) → List (Tree α)
  | [] => []
  | tree :: rest => fringe tree ++ fringeAll rest

end

theorem fringeAll_eq (trees : List (Tree α)) : fringeAll trees = trees.flatMap fringe := by
  induction trees with
  | nil => rfl
  | cons tree rest ih => rw [fringeAll, ih, List.flatMap_cons]

theorem leaves_eq_fringe (tree : Tree α) : tree.leaves = tree.fringe := by
  induction tree using induct with
  | node label children ih =>
    cases children with
    | nil =>
      rw [leaves_eq, nodes_node]
      rfl
    | cons child rest =>
      rw [leaves_node label (List.cons_ne_nil child rest), fringe, if_neg (by simp), fringeAll_eq]
      exact List.flatMap_congr ih

/-! ## §3. Flat lists. -/

/-- The labels in pre-order, each with its depth; the root has the given one. -/
def flatFrom (depth : Nat) (tree : Tree α) : List (Nat × α) :=
  (preorder depth tree).map fun entry => (entry.1, entry.2.label)

theorem flatFrom_node (depth : Nat) (label : α) (children : List (Tree α)) :
    flatFrom depth (node label children) = (depth, label) :: children.flatMap (flatFrom (depth + 1)) := by
  rw [flatFrom, preorder, preorderAll_eq, List.map_cons, List.map_flatMap]
  rfl

/-- A label, over those of the trees already read that lie deeper, up to the first that does not. -/
def attach (entry : Nat × α) (read : List (Nat × Tree α)) : List (Nat × Tree α) :=
  (entry.1, node entry.2 ((read.takeWhile fun later => entry.1 < later.1).map Prod.snd)) ::
    read.dropWhile fun later => entry.1 < later.1

/-- Reads a flat list from its end, by nothing but the depths. -/
def ofFlat (entries : List (Nat × α)) : List (Nat × Tree α) :=
  entries.foldr attach []

/-- The first tree, if there is one, does not lie deeper than this. -/
def Shallow (depth : Nat) (read : List (Nat × Tree α)) : Prop :=
  ∀ entry ∈ read.head?, entry.1 ≤ depth

theorem attach_append {depth : Nat} {label : α} {children : List (Tree α)} {read : List (Nat × Tree α)}
    (shallow : Shallow depth read) :
    attach (depth, label) (children.map (Prod.mk (depth + 1)) ++ read) =
      (depth, node label children) :: read := by
  have deeper : ∀ entry ∈ children.map (Prod.mk (depth + 1)), decide (depth < entry.1) = true := by
    intro entry mem
    obtain ⟨child, _, rfl⟩ := List.mem_map.1 mem
    exact decide_eq_true (Nat.lt_succ_self depth)
  have stops : read.takeWhile (fun entry => depth < entry.1) = [] ∧
      read.dropWhile (fun entry => depth < entry.1) = read := by
    cases read with
    | nil => exact ⟨rfl, rfl⟩
    | cons entry rest =>
      have outside : ¬depth < entry.1 := Nat.not_lt.2 (shallow entry rfl)
      exact ⟨List.takeWhile_cons_of_neg (by simpa using outside),
        List.dropWhile_cons_of_neg (by simpa using outside)⟩
  unfold attach
  dsimp only
  rw [List.takeWhile_append_of_pos deeper, List.dropWhile_append_of_pos deeper, stops.1, stops.2,
    List.append_nil, List.map_map]
  congr 3
  exact List.map_id children

/-- Trees that are read back one by one are read back one after the other. -/
theorem foldr_attach_flatMap {depth : Nat} {trees : List (Tree α)} {read : List (Nat × Tree α)}
    (each : ∀ tree ∈ trees, ∀ later, Shallow depth later →
      (flatFrom depth tree).foldr attach later = (depth, tree) :: later) (shallow : Shallow depth read) :
    (trees.flatMap (flatFrom depth)).foldr attach read = trees.map (Prod.mk depth) ++ read := by
  induction trees with
  | nil => rfl
  | cons tree rest ih =>
    rw [List.flatMap_cons, List.foldr_append, ih fun other mem => each other (List.mem_cons_of_mem _ mem)]
    refine each tree List.mem_cons_self _ ?_
    -- What comes next is another of the trees, or what was there before them.
    intro entry first
    cases rest with
    | nil => exact shallow entry first
    | cons next others =>
      cases first
      exact Nat.le_refl depth

theorem foldr_attach_flatFrom (tree : Tree α) {depth : Nat} {read : List (Nat × Tree α)}
    (shallow : Shallow depth read) : (flatFrom depth tree).foldr attach read = (depth, tree) :: read := by
  induction tree using induct generalizing depth read with
  | node label children ih =>
    have deep : Shallow (depth + 1) read := by
      intro entry first
      exact Nat.le_succ_of_le (shallow entry first)
    rw [flatFrom_node, List.foldr_cons,
      foldr_attach_flatMap (fun child mem later shallow => ih child mem shallow) deep]
    exact attach_append shallow

theorem ofFlat_flatFrom (tree : Tree α) : ofFlat (flatFrom 0 tree) = [(0, tree)] := by
  refine foldr_attach_flatFrom tree ?_
  intro entry first
  cases first

theorem flatFrom_injective : Function.Injective (flatFrom (α := α) 0) := by
  intro left right same
  have back := congrArg ofFlat same
  rw [ofFlat_flatFrom, ofFlat_flatFrom] at back
  cases back
  rfl

theorem preorder_map (f : α → β) (tree : Tree α) (depth : Nat) :
    preorder depth (tree.map f) = (preorder depth tree).map fun entry => (entry.1, entry.2.map f) := by
  induction tree using induct generalizing depth with
  | node label children ih =>
    rw [map_node, preorder, preorder, preorderAll_eq, preorderAll_eq, List.map_cons, List.map_flatMap,
      List.flatMap_map, map_node]
    congr 1
    exact List.flatMap_congr fun child mem => ih child mem (depth + 1)

end Tree

/-! ## §4. Tokens that are the same tree. -/

namespace Token

variable {S : Type}

mutual

/-- The roots agree in kind, value and position, and the children are the same
one by one; what comes next in the stream plays no part. -/
def Same : (left right : Token S) → Prop
  | .node label children, .node label' others =>
    label.kind = label'.kind ∧ label.value = label'.value ∧ label.position = label'.position ∧
      SameAll children others

/-- The trees of two lists are the same one by one. -/
def SameAll : (left right : List (Token S)) → Prop
  | [], [] => True
  | [], _ :: _ => False
  | _ :: _, [] => False
  | token :: rest, other :: others => Same token other ∧ SameAll rest others

end

theorem sameAll_iff {left right : List (Token S)}
    (each : ∀ token ∈ left, ∀ other : Token S, token.Same other ↔ token.erase = other.erase) :
    SameAll left right ↔ left.map erase = right.map erase := by
  induction left generalizing right with
  | nil =>
    cases right with
    | nil => simp [SameAll]
    | cons other others => simp [SameAll]
  | cons token rest ih =>
    cases right with
    | nil => simp [SameAll]
    | cons other others =>
      rw [SameAll, List.map_cons, List.map_cons, List.cons.injEq,
        each token List.mem_cons_self other, ih fun token mem => each token (List.mem_cons_of_mem _ mem)]

/-- Tokens are the same if they agree when the links are left out. -/
theorem same_iff_erase {left right : Token S} : left.Same right ↔ left.erase = right.erase := by
  induction left using Tree.induct generalizing right with
  | node label children ih =>
    obtain ⟨label', others⟩ := right
    have lexemes : label.toLexeme = label'.toLexeme ↔
        label.kind = label'.kind ∧ label.value = label'.value ∧ label.position = label'.position :=
      Lexeme.mk.injEq .. ▸ Iff.rfl
    have subtrees : SameAll children others ↔ children.map erase = others.map erase :=
      sameAll_iff fun token mem other => ih token mem
    rw [Same, erase, erase, Tree.map_node, Tree.map_node, Tree.node.injEq, lexemes, subtrees, and_assoc,
      and_assoc]
    rfl

/-- The kind, value and position of every node in pre-order, each with the depth of the node. -/
def flat (token : Token S) : List (Nat × Lexeme S) :=
  token.walk.map fun entry => (entry.1, entry.2.label.toLexeme)

theorem flat_eq_flatFrom (token : Token S) : token.flat = Tree.flatFrom 0 token.erase := by
  rw [flat, Tree.walk_eq_preorder, Tree.flatFrom, erase, Tree.preorder_map, List.map_map]
  refine List.map_congr_left fun entry _ => ?_
  rw [Function.comp_apply, Tree.label_map]

theorem flat_eq_iff {left right : Token S} : left.flat = right.flat ↔ left.Same right := by
  rw [flat_eq_flatFrom, flat_eq_flatFrom, Tree.flatFrom_injective.eq_iff, same_iff_erase]

end Token

/-! ## §5. The walk. -/

/-- However many steps are granted, the walk makes as many as there are nodes and
is then at its end.  It is the recursive pre-order traversal: it goes along all
the paths of the tree, each of them once, in ascending order, and gives the node at
the end of a path the length of the path as its depth.  The leaves are the childless
nodes, as they are found by recursion.  Two tokens have the same flat list
if and only if they are the same tree. -/
theorem walk_encodes_tree {S : Type} (tree : Token S) :
    (∀ steps, Tree.walkFrom steps [(0, tree)] = tree.walk.take steps) ∧
    tree.walk.length = tree.size ∧
    tree.walk = Tree.preorder 0 tree ∧
    (∃ paths : List (List Nat), paths.Pairwise (· < ·) ∧
      (∀ path, path ∈ paths ↔ (tree.at? path).isSome = true) ∧
      tree.walk.map some = paths.map fun path => (tree.at? path).map fun node => (path.length, node)) ∧
    tree.leaves = tree.fringe ∧
    ∀ other : Token S, tree.flat = other.flat ↔ tree.Same other := by
  have traversal := Tree.walk_eq_preorder tree
  refine ⟨fun steps => ?_, ?_, traversal, ?_, Tree.leaves_eq_fringe tree, fun other => Token.flat_eq_iff⟩
  · rw [traversal, Tree.walkFrom_eq_take, List.flatMap_singleton]
  · rw [traversal, Tree.length_preorder]
  · refine ⟨tree.paths, tree.pairwise_paths, fun path => Tree.mem_paths, ?_⟩
    rw [traversal, Tree.preorder_eq_paths]
    simp only [Nat.zero_add]

end ShiftReduce
