/-
  ShiftReduce.Proofs.LinkedLookahead
  ────────────────────────────────
  **THE LINKS OF THE TREES AGREE WITH THE CURSOR.**

  A prediction asks the top of the stack which token comes next, a shift asks
  the cursor.  A token is linked to the one after it in the stream, and a node
  takes over the link of its last child, so the link of a tree leads to the token
  after its last leaf.  The leaves on the stack are the tokens before the cursor:
  what comes after the last leaf of a tree is the first leaf of the tree above it,
  or the token at the cursor if there is none.

  Main statement: `links_agree`.
-/
import ShiftReduce.Proofs.ExactPrediction
import ShiftReduce.Proofs.TokenConservation

namespace ShiftReduce

variable {S : Type}

/-! ## §1. Where trees begin, and what follows them. -/

theorem Tree.leaves_ne_nil {α : Type} (tree : Tree α) : tree.leaves ≠ [] := by
  intro none
  exact tree.yield_ne_nil (by rw [Tree.yield, none]; rfl)

namespace Token

/-- The tree begins where its first leaf does, and is linked to what its last
leaf is linked to. -/
def Framed (token : Token S) : Prop :=
  ∃ first last : Token S, token.leaves.head? = some first ∧ token.leaves.getLast? = some last ∧
    token.position = first.position ∧ token.label.next = last.label.next

theorem lookahead?_congr {token other : Token S} (same : token.label.next = other.label.next)
    (stream : TokenStream S) : token.lookahead? stream = other.lookahead? stream := by
  rw [lookahead?, same]
  rfl

theorem framed_leaf (label : LinkedLexeme S) : Framed (.node label [] : Token S) := by
  have leaves : Tree.leaves (.node label [] : Token S) = [.node label []] := rfl
  exact ⟨_, _, by rw [leaves]; rfl, by rw [leaves]; rfl, rfl, rfl⟩

/-- A node begins with the first leaf of its first child, and ends with the last
leaf of its last child. -/
theorem framed_reduce (symbol : S) {children : List (Token S)} (some : children ≠ [])
    (framed : ∀ child ∈ children, Framed child) : (reduce symbol children).Framed := by
  have leaves := leaves_reduce symbol some
  have beginning : ∃ first : Token S, (reduce symbol children).leaves.head? = Option.some first ∧
      (reduce symbol children).position = first.position := by
    obtain ⟨child, others, rfl⟩ := List.exists_cons_of_ne_nil some
    obtain ⟨first, _, hfirst, _, position, _⟩ := framed child List.mem_cons_self
    refine ⟨first, ?_, position⟩
    rw [leaves, List.flatMap_cons, List.head?_append_of_ne_nil _ child.leaves_ne_nil, hfirst]
  have ending : ∃ last : Token S, (reduce symbol children).leaves.getLast? = Option.some last ∧
      (reduce symbol children).label.next = last.label.next := by
    obtain ⟨others, child, rfl⟩ := (List.eq_nil_or_concat' children).resolve_left some
    obtain ⟨_, last, _, hlast, _, next⟩ := framed child (List.mem_append_right _ (List.mem_singleton.2 rfl))
    refine ⟨last, ?_, ?_⟩
    · rw [leaves, List.flatMap_append, List.flatMap_singleton,
        List.getLast?_append_of_ne_nil _ child.leaves_ne_nil, hlast]
    · rw [← next]
      simp [reduce]
  obtain ⟨first, hfirst, position⟩ := beginning
  obtain ⟨last, hlast, next⟩ := ending
  exact ⟨first, last, hfirst, hlast, position, next⟩

/-- All subtrees of a tree whose nodes have been made by reductions are framed. -/
theorem MadeBy.framed {rules : List (Rule S)} {token : Token S} (made : token.MadeBy rules) :
    ∀ node ∈ token.nodes, Framed node := by
  induction token using Tree.induct with
  | node label children ih =>
    have below : ∀ child ∈ children, ∀ node ∈ child.nodes, Framed node := by
      intro child mem
      refine ih child mem fun node hnode => made node ?_
      exact Tree.mem_nodes_node.2 (.inr ⟨child, mem, hnode⟩)
    intro node mem
    rcases Tree.mem_nodes_node.1 mem with rfl | ⟨child, hchild, mem⟩
    · cases children with
      | nil => exact framed_leaf label
      | cons child others =>
        have some := List.cons_ne_nil child others
        -- The root itself has been made by a reduction, from children that are framed.
        obtain ⟨rule, _, _, same⟩ := made _ (Tree.self_mem_nodes _) some
        rw [same]
        exact framed_reduce rule.lhs some fun child mem => below child mem child child.self_mem_nodes
    · exact below child hchild node mem

end Token

/-! ## §2. Trees in a row over the stream. -/

namespace TokenStream

variable {stream : TokenStream S}

/-- What stands in a row that the stream begins with stands there in the stream. -/
theorem get?_of_take_eq {before after : List (Token S)} {token : Token S} {count : Nat}
    (row : before ++ token :: after = stream.tokens.take count) :
    stream.get? before.length = some token := by
  have found : (stream.tokens.take count)[before.length]? = some token := by
    rw [← row, List.getElem?_append_right (Nat.le_refl _), Nat.sub_self]
    rfl
  rw [List.getElem?_take] at found
  split at found
  · rw [← getElem?_tokens, found]
  · cases found

/-- A token of the stream is linked to the one after it. -/
theorem lookahead?_of_get? {index : Nat} {token : Token S} (h : stream.get? index = some token) :
    token.lookahead? stream = stream.get? (index + 1) := by
  obtain ⟨_, _, _, next⟩ := get?_eq_some h
  rw [Token.lookahead?, next]
  split
  · rfl
  · next beyond => exact (get?_eq_none_iff.2 (Nat.le_of_not_lt beyond)).symm

/-- A tree over tokens of the stream is linked to the token after its last leaf. -/
theorem lookahead?_of_leaves {token : Token S} {others after : List (Token S)} {count : Nat}
    (framed : token.Framed) (leaves : others ++ token.leaves ++ after = stream.tokens.take count) :
    token.lookahead? stream = stream.get? (others ++ token.leaves).length := by
  obtain ⟨_, last, _, hlast, _, next⟩ := framed
  obtain ⟨init, hinit⟩ := List.getLast?_eq_some_iff.1 hlast
  -- The last leaf stands right before the place in question.
  rw [hinit, ← List.append_assoc, List.append_assoc, List.singleton_append] at leaves
  have length : (others ++ token.leaves).length = (others ++ init).length + 1 := by
    rw [hinit, ← List.append_assoc]
    exact List.length_append
  rw [Token.lookahead?_congr next, lookahead?_of_get? (get?_of_take_eq leaves), length]

end TokenStream

variable [DecidableEq S] [GrammarSymbol S]

namespace Problem

variable {problem : Problem S} {before after : List (Token S)} {lower upper top : Token S}
  {cursor : Nat}

/-- The top of the stack is linked to the token at the cursor. -/
theorem lookahead?_top (framed : top.Framed) (within : cursor ≤ problem.stream.size)
    (leaves : (before ++ [top]).flatMap Tree.leaves = problem.stream.tokens.take cursor) :
    top.lookahead? problem.stream = problem.stream.get? cursor := by
  have length := congrArg List.length leaves
  rw [List.length_take, TokenStream.length_tokens, Nat.min_eq_left within, List.flatMap_append,
    List.flatMap_singleton] at length
  rw [List.flatMap_append, List.flatMap_singleton, ← List.append_nil (_ ++ _)] at leaves
  rw [TokenStream.lookahead?_of_leaves framed leaves, length]

/-- Any other tree is linked to the first leaf of the one above it. -/
theorem lookahead?_lower (framed : lower.Framed)
    (leaves : (before ++ lower :: upper :: after).flatMap Tree.leaves =
      problem.stream.tokens.take cursor) :
    ∃ leaf, upper.leaves.head? = some leaf ∧ lower.lookahead? problem.stream = some leaf := by
  obtain ⟨leaf, rest, hrest⟩ := List.exists_cons_of_ne_nil upper.leaves_ne_nil
  rw [List.flatMap_append, List.flatMap_cons, ← List.append_assoc] at leaves
  refine ⟨leaf, by rw [hrest]; rfl, ?_⟩
  rw [TokenStream.lookahead?_of_leaves framed leaves]
  -- The first leaf of the upper tree comes right after the leaves up to the lower one.
  rw [List.flatMap_cons, hrest, List.cons_append] at leaves
  exact TokenStream.get?_of_take_eq leaves

end Problem

/-! ## §3. Links on the stack. -/

/-- In a branch that operations lead to and that is not done, the top of the stack
is linked to the token at the cursor, and to none exactly at the end of the stream.
Every other tree is linked to the first leaf of the tree above it, and every inner
node begins where its first leaf does and is linked to what its last leaf is. -/
theorem links_agree {problem : Problem S} {branch : Branch S} (reachable : problem.Reachable branch)
    (unfinished : branch.done = false) :
    (∀ top, branch.stack.peek? = some top →
      top.lookahead? problem.stream = problem.stream.get? branch.cursor ∧
      (top.lookahead? problem.stream = none ↔ branch.cursor = problem.stream.size)) ∧
    (∀ index lower upper, branch.stack.toList[index]? = some lower →
      branch.stack.toList[index + 1]? = some upper →
        ∃ leaf, upper.leaves.head? = some leaf ∧ lower.lookahead? problem.stream = some leaf) ∧
    (∀ token ∈ branch.stack.toList, ∀ node ∈ token.nodes, node.children ≠ [] →
      ∃ first last : Token S, node.leaves.head? = some first ∧ node.leaves.getLast? = some last ∧
        Token.position node = first.position ∧
        Token.lookahead? node problem.stream = last.lookahead? problem.stream) := by
  have conserves := problem.conserves_invariant.of_reachable reachable
  have within := conserves.within
  have framed : ∀ token ∈ branch.stack.toList, ∀ node ∈ token.nodes, Token.Framed node :=
    fun token mem => (conserves.made token (List.mem_reverse.1 mem)).framed
  -- Only a branch that is done may have passed over a token.
  have leaves : branch.stack.toList.flatMap Tree.leaves = problem.stream.tokens.take branch.cursor := by
    refine conserves.leaves.resolve_right fun passed => ?_
    rw [unfinished] at passed
    cases passed.1
  refine ⟨?_, ?_, ?_⟩
  · intro top peek
    obtain ⟨rest, items⟩ := List.head?_eq_some_iff.1 peek
    have shown : branch.stack.toList = rest.reverse ++ [top] := by
      rw [UndoStack.toList, items, List.reverse_cons]
    rw [shown] at framed leaves
    have next := Problem.lookahead?_top
      (framed top (by simp) top top.self_mem_nodes) within leaves
    refine ⟨next, ?_⟩
    rw [next, TokenStream.get?_eq_none_iff]
    omega
  · intro index lower upper hlower hupper
    obtain ⟨here, rfl⟩ := List.getElem?_eq_some_iff.1 hlower
    obtain ⟨there, rfl⟩ := List.getElem?_eq_some_iff.1 hupper
    -- The two trees stand next to each other, with others below and above them.
    have shown : branch.stack.toList = branch.stack.toList.take index ++
        branch.stack.toList[index] :: branch.stack.toList[index + 1] ::
          branch.stack.toList.drop (index + 1 + 1) := by
      rw [← List.drop_eq_getElem_cons there, ← List.drop_eq_getElem_cons here, List.take_append_drop]
    rw [shown] at leaves
    exact Problem.lookahead?_lower (framed _ (List.getElem_mem here) _ (Tree.self_mem_nodes _)) leaves
  · intro token mem node hnode _
    obtain ⟨first, last, hfirst, hlast, position, next⟩ := framed token mem node hnode
    exact ⟨first, last, hfirst, hlast, position, Token.lookahead?_congr next _⟩

/-- With `E + T` on the stack the move `E => T` is refused and leaves `E + E` there.
All the same the `+` is linked to the first leaf of the `E` above it, and that to
nothing, since the input is used up. -/
theorem links_agree_sum :
    ∃ branch lower middle top, Problem.Reachable ⟨sumTable, sumStream⟩ branch ∧
      branch.done = false ∧ branch.error.isSome = true ∧
      branch.stack.toList = [lower, middle, top] ∧
      branch.stackKinds = [.nonTerminal "E", .terminal "+", .nonTerminal "E"] ∧
      (∃ leaf, top.leaves.head? = some leaf ∧ middle.lookahead? sumStream = some leaf) ∧
      top.lookahead? sumStream = none ∧ branch.cursor = 3 := by
  have known : ∀ move ∈ sumMoves ++ (sumMoves.drop 1).take 1,
      Problem.Knows ⟨sumTable, sumStream⟩ move := by
    decide +kernel
  have reachable := Problem.Reachable.replay known
  generalize hbranch : (Problem.machine ⟨sumTable, sumStream⟩).replay
    (sumMoves ++ (sumMoves.drop 1).take 1) = branch at reachable
  have ended : branch.done = false ∧ branch.error.isSome = true ∧ branch.cursor = 3 := by
    subst hbranch
    decide +kernel
  have kinds : branch.stackKinds = [.nonTerminal "E", .terminal "+", .nonTerminal "E"] := by
    subst hbranch
    decide +kernel
  obtain ⟨lower, middle, top, trees⟩ : ∃ lower middle top, branch.stack.toList = [lower, middle, top] :=
    List.length_eq_three.1 ((List.length_map _).symm.trans (congrArg List.length kinds))
  obtain ⟨atTop, above, _⟩ := links_agree reachable ended.1
  have peek : branch.stack.peek? = some top := by
    rw [UndoStack.peek?, ← List.reverse_reverse branch.stack.items]
    exact congrArg (fun trees => trees.reverse.head?) trees
  exact ⟨branch, lower, middle, top, reachable, ended.1, ended.2.1, trees, kinds,
    above 1 middle top (by rw [trees]; rfl) (by rw [trees]; rfl),
    (atTop top peek).2.2 ended.2.2, ended.2.2⟩

end ShiftReduce
