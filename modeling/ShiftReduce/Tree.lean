/-
  ShiftReduce.Tree
  ────────────────────────────────
  **TREES WITH ANY NUMBER OF CHILDREN.**

  A labelled tree, its nodes in pre-order with their depths, and its leaves.
  The walk keeps the subtrees still to visit on a list, so it needs no
  recursion into the children; it takes one step for each node of the tree.
-/

namespace ShiftReduce

/-! ## §1. Trees. -/

/-- A label over the children, which are ordered from the left to the right. -/
inductive Tree (α : Type) where
  | node (label : α) (children : List (Tree α))

namespace Tree

variable {α β : Type}

/-- The label of the root. -/
def label : Tree α → α
  | node label _ => label

/-- The subtrees under the root. -/
def children : Tree α → List (Tree α)
  | node _ children => children

/-- The tree with another label at its root. -/
def withLabel : Tree α → α → Tree α
  | node _ children, label => node label children

/-- The root has no child. -/
def isLeaf (tree : Tree α) : Bool :=
  tree.children.isEmpty

/-! ## §2. Functions on the whole tree. -/

mutual

/-- The number of nodes. -/
def size : Tree α → Nat
  | node _ children => 1 + sizeAll children

/-- The number of nodes of several trees. -/
def sizeAll : List (Tree α) → Nat
  | [] => 0
  | tree :: rest => size tree + sizeAll rest

end

mutual

/-- The tree of the same shape with every label changed by `f`. -/
def map (f : α → β) : Tree α → Tree β
  | node label children => node (f label) (mapAll f children)

/-- The trees with every label changed by `f`. -/
def mapAll (f : α → β) : List (Tree α) → List (Tree β)
  | [] => []
  | tree :: rest => map f tree :: mapAll f rest

end

mutual

/-- Trees are equal if their labels and, one by one, their children are. -/
def decEq [DecidableEq α] : (left right : Tree α) → Decidable (left = right)
  | node a children, node b others =>
    if hlabel : a = b then
      match decEqAll children others with
      | isTrue hchildren => isTrue (by rw [hlabel, hchildren])
      | isFalse hchildren => isFalse fun h => by cases h; exact hchildren rfl
    else isFalse fun h => by cases h; exact hlabel rfl

/-- Equality of lists of trees. -/
def decEqAll [DecidableEq α] : (left right : List (Tree α)) → Decidable (left = right)
  | [], [] => isTrue rfl
  | [], _ :: _ => isFalse fun h => by cases h
  | _ :: _, [] => isFalse fun h => by cases h
  | a :: as, b :: bs =>
    match decEq a b with
    | isFalse hhead => isFalse fun h => by cases h; exact hhead rfl
    | isTrue hhead =>
      match decEqAll as bs with
      | isTrue htail => isTrue (by rw [hhead, htail])
      | isFalse htail => isFalse fun h => by cases h; exact htail rfl

end

instance [DecidableEq α] : DecidableEq (Tree α) := decEq

/-! ## §3. The walk. -/

/-- The next nodes of the subtrees still to visit, each with its depth, at most
`steps` of them. -/
def walkFrom : Nat → List (Nat × Tree α) → List (Nat × Tree α)
  | 0, _ => []
  | _ + 1, [] => []
  | steps + 1, (depth, tree) :: rest =>
    (depth, tree) :: walkFrom steps (tree.children.map (fun child => (depth + 1, child)) ++ rest)

/-- Every node in pre-order, as the subtree it roots, with its distance from the root. -/
def walk (tree : Tree α) : List (Nat × Tree α) :=
  walkFrom tree.size [(0, tree)]

/-- The nodes without children, from the left to the right. -/
def leaves (tree : Tree α) : List (Tree α) :=
  (tree.walk.map Prod.snd).filter isLeaf

end Tree

end ShiftReduce
