/-
  ShiftReduce.Proofs.TokenConservation
  ────────────────────────────────
  **NO TOKEN IS LOST, DOUBLED OR MOVED.**

  Whatever is done to a branch, the leaves of the trees on its stack are the
  tokens before its cursor, in their order, and the nodes above them have been
  made by rules.  Only completion passes over a token, which is an end-marker
  at the end of the stream.

  Main statement: `tokens_conserved`.
-/
import ShiftReduce.Proofs.Branch.Reachable
import ShiftReduce.Proofs.Tree.Parse
import ShiftReduce.Symbol.Named

namespace ShiftReduce

variable {S : Type}

/-! ## §1. The tokens of a stream. -/

/-- Looking up all places of a list in turn gives the list. -/
theorem filterMap_range_getElem? {α : Type} (elements : List α) :
    ((List.range elements.length).filterMap fun index => elements[index]?) = elements := by
  induction elements with
  | nil => rfl
  | cons first rest ih =>
    rw [List.length_cons, List.range_succ_eq_map, List.filterMap_cons, List.filterMap_map]
    exact congrArg (first :: ·) ih

namespace TokenStream

variable {stream : TokenStream S}

/-- The tokens are the lexemes, each with its link. -/
theorem tokens_eq (stream : TokenStream S) :
    stream.tokens = stream.lexemes.mapIdx fun index lexeme =>
      .node { lexeme with next := if index + 1 < stream.size then some (index + 1) else none } [] := by
  refine Eq.trans ?_ (filterMap_range_getElem? _)
  rw [tokens, List.length_mapIdx]
  refine List.filterMap_congr fun index _ => ?_
  rw [List.getElem?_mapIdx]
  rfl

theorem getElem?_tokens (stream : TokenStream S) (index : Nat) :
    stream.tokens[index]? = stream.get? index := by
  rw [tokens_eq, List.getElem?_mapIdx]
  rfl

theorem take_succ_tokens {index : Nat} {token : Token S} (h : stream.get? index = some token) :
    stream.tokens.take (index + 1) = stream.tokens.take index ++ [token] := by
  rw [List.take_add_one, getElem?_tokens, h]
  rfl

theorem length_tokens (stream : TokenStream S) : stream.tokens.length = stream.size := by
  rw [tokens_eq, List.length_mapIdx]
  rfl

theorem exists_leaf_of_get? {index : Nat} {token : Token S} (h : stream.get? index = some token) :
    ∃ label, token = .node label [] := by
  obtain ⟨lexeme, _, rfl⟩ := Option.map_eq_some_iff.1 h
  exact ⟨_, rfl⟩

end TokenStream

/-! ## §2. Nodes made by reductions. -/

namespace Token

/-- Every inner node has been made by a reduction, from children of the kinds
that some rule of the list asks for. -/
def MadeBy (rules : List (Rule S)) (token : Token S) : Prop :=
  ∀ node ∈ token.nodes, node.children ≠ [] →
    ∃ rule ∈ rules, node.children.map kind = rule.rhs ∧ node = reduce rule.lhs node.children

variable {rules : List (Rule S)}

theorem madeBy_leaf (label : LinkedLexeme S) : MadeBy rules (.node label []) := by
  intro node mem inner
  rcases Tree.mem_nodes_node.1 mem with rfl | ⟨child, none, _⟩
  · exact absurd rfl inner
  · exact absurd none List.not_mem_nil

theorem madeBy_reduce {rule : Rule S} {children : List (Token S)} (hrule : rule ∈ rules)
    (kinds : children.map kind = rule.rhs) (made : ∀ child ∈ children, child.MadeBy rules) :
    (reduce rule.lhs children).MadeBy rules := by
  intro node mem inner
  rcases Tree.mem_nodes_node.1 mem with rfl | ⟨child, hchild, mem⟩
  · exact ⟨rule, hrule, kinds, rfl⟩
  · exact made child hchild node mem inner

theorem leaves_reduce (symbol : S) {children : List (Token S)} (some : children ≠ []) :
    (reduce symbol children).leaves = children.flatMap Tree.leaves :=
  Tree.leaves_node _ some

end Token

/-! ## §3. What every operation keeps. -/

variable [DecidableEq S] [GrammarSymbol S]

namespace Problem

/-- The cursor stays within the stream, the trees on the stack, top first, are
made by rules, and their leaves are the tokens before the cursor.  Once a branch
has been completed, the last of these may be an end-marker that is no leaf. -/
structure Conserves (problem : Problem S) (trees : List (Token S)) (cursor : Nat) (done : Bool) :
    Prop where
  within : cursor ≤ problem.stream.size
  made : ∀ token ∈ trees, token.MadeBy problem.table.rules.toList
  leaves : trees.reverse.flatMap Tree.leaves = problem.stream.tokens.take cursor ∨
    done = true ∧ problem.table.acceptsExplicitly = false ∧ cursor = problem.stream.size ∧
      ∃ marker : Token S, GrammarSymbol.isEndMarker marker.kind = true ∧
        trees.reverse.flatMap Tree.leaves ++ [marker] = problem.stream.tokens

variable {problem : Problem S} {trees : List (Token S)} {cursor : Nat} {done : Bool}

theorem Conserves.shift {token : Token S} (conserves : problem.Conserves trees cursor done)
    (next : problem.stream.get? cursor = some token) :
    problem.Conserves (token :: trees) (cursor + 1) done := by
  obtain ⟨label, hlabel⟩ := TokenStream.exists_leaf_of_get? next
  have less : cursor < problem.stream.size := by
    refine Nat.lt_of_not_le fun beyond => ?_
    rw [TokenStream.get?_eq_none_iff.2 beyond] at next
    cases next
  refine ⟨less, ?_, .inl ?_⟩
  · intro other mem
    rcases List.mem_cons.1 mem with rfl | mem
    · rw [hlabel]
      exact Token.madeBy_leaf label
    · exact conserves.made other mem
  · -- A branch whose cursor has passed over an end-marker has no token to shift.
    have leaves := conserves.leaves.resolve_right fun passed => by omega
    have leaf : token.leaves = [token] := by
      rw [hlabel]
      rfl
    rw [List.reverse_cons, List.flatMap_append, List.flatMap_singleton, leaves, leaf,
      TokenStream.take_succ_tokens next]

theorem Conserves.contract {rule : Rule S} {children rest : List (Token S)}
    (conserves : problem.Conserves (children.reverse ++ rest) cursor done)
    (hrule : rule ∈ problem.table.rules.toList) (kinds : children.map Token.kind = rule.rhs) :
    problem.Conserves (Token.reduce rule.lhs children :: rest) cursor done := by
  have some : children ≠ [] := by
    rintro rfl
    exact problem.table.rules.rhs_ne_nil rule hrule kinds.symm
  -- The leaves stay where they are: those of the new node are those of its children.
  have same : (Token.reduce rule.lhs children :: rest).reverse.flatMap Tree.leaves =
      (children.reverse ++ rest).reverse.flatMap Tree.leaves := by
    rw [List.reverse_cons, List.reverse_append, List.reverse_reverse, List.flatMap_append,
      List.flatMap_append, List.flatMap_singleton, Token.leaves_reduce rule.lhs some]
  refine ⟨conserves.within, ?_, by rw [same]; exact conserves.leaves⟩
  intro token mem
  rcases List.mem_cons.1 mem with rfl | mem
  · refine Token.madeBy_reduce hrule kinds fun child hchild => ?_
    exact conserves.made child (List.mem_append_left _ (List.mem_reverse.2 hchild))
  · exact conserves.made token (List.mem_append_right _ mem)

/-- Completion may pass over the last token, if that is an end-marker. -/
theorem Conserves.complete (conserves : problem.Conserves trees cursor false)
    (implicit : problem.table.acceptsExplicitly = false) (settled : problem.SettledAt cursor) :
    problem.Conserves trees problem.stream.size true := by
  have leaves := conserves.leaves.resolve_right fun passed => Bool.false_ne_true passed.1
  refine ⟨Nat.le_refl _, conserves.made, ?_⟩
  rcases settled with none | ⟨marker, one, isMarker⟩
  · have whole : problem.stream.size = cursor :=
      Nat.le_antisymm (List.drop_eq_nil_iff.1 none) conserves.within
    rw [whole]
    exact .inl leaves
  · have whole : problem.stream.size = cursor + 1 := by
      have left := congrArg List.length one
      rw [List.length_drop, List.length_singleton] at left
      have within := conserves.within
      unfold TokenStream.size at within ⊢
      omega
    have here : problem.stream.lexemes[cursor]? = some marker := by
      rw [← List.head?_drop, one]
      rfl
    obtain ⟨token, next⟩ : ∃ token, problem.stream.get? cursor = some token := by
      rw [TokenStream.get?, here]
      exact ⟨_, rfl⟩
    refine .inr ⟨rfl, implicit, rfl, token, ?_, ?_⟩
    · obtain ⟨lexeme, there, erased, _⟩ := TokenStream.get?_eq_some next
      cases here.symm.trans there
      rw [← Token.kind_erase, erased]
      exact isMarker
    · rw [leaves, ← TokenStream.take_succ_tokens next, ← whole, ← TokenStream.length_tokens,
        List.take_length]

/-- A branch that is over does not start again. -/
theorem Conserves.goOn {done' : Bool} (conserves : problem.Conserves trees cursor done)
    (later : done = true → done' = true) : problem.Conserves trees cursor done' :=
  ⟨conserves.within, conserves.made, conserves.leaves.imp_right fun passed => ⟨later passed.1, passed.2⟩⟩

theorem conserves_blank (problem : Problem S) : problem.Conserves [] 0 false :=
  ⟨Nat.zero_le _, fun _ none => absurd none List.not_mem_nil, .inl rfl⟩

theorem conserves_invariant (problem : Problem S) : problem.Invariant problem.Conserves where
  blank := problem.conserves_blank
  first _ next := problem.conserves_blank.shift next
  rewrite hitem conserves rewrites later := by
    have later : _ = true → _ = true := fun ended => later.elim (·.trans ended) (·.2)
    refine Conserves.goOn ?_ later
    -- Whatever item is followed, it belongs to a rule, and a rule is all that a contraction needs.
    obtain ⟨rule, hrule, position, _, rfl⟩ := DecisionTable.mem_items.1 hitem
    cases rewrites with
    | shift _ next => exact conserves.shift next
    | contract _ kinds _ => exact conserves.contract hrule kinds
  complete conserves implicit _ settled := conserves.complete implicit settled

end Problem

/-! ## §4. Conservation. -/

/-- In every branch that operations lead to, no pop is left to undo, all nodes
have been made by rules, and the leaves of the trees on the stack, bottom first,
are the tokens before the cursor; only a branch done without an end-marker rule
may have passed over an end-marker at the end.  Its result is these trees, top
first, whether or not the branch has failed. -/
theorem tokens_conserved {problem : Problem S} {branch : Branch S}
    (reachable : problem.Reachable branch) :
    branch.stack.pending = 0 ∧ branch.cursor ≤ problem.stream.size ∧
      (∀ token ∈ branch.stack.toList, token.MadeBy problem.table.rules.toList) ∧
      (branch.stack.toList.flatMap Tree.leaves = problem.stream.tokens.take branch.cursor ∨
        branch.done = true ∧ problem.table.acceptsExplicitly = false ∧
          branch.cursor = problem.stream.size ∧
          ∃ marker : Token S, GrammarSymbol.isEndMarker marker.kind = true ∧
            branch.stack.toList.flatMap Tree.leaves ++ [marker] = problem.stream.tokens) ∧
      branch.result = ⟨branch.stack.toList.reverse.map Token.erase, branch.error⟩ := by
  have clean := reachable.clean
  have conserves := problem.conserves_invariant.of_reachable reachable
  refine ⟨congrArg List.length clean, conserves.within, ?_, conserves.leaves, ?_⟩
  · intro token mem
    exact conserves.made token (List.mem_reverse.1 mem)
  · rw [Branch.result, UndoStack.drain, UndoStack.rollback, clean, UndoStack.toList, List.reverse_reverse]
    rfl

/-- The rules `S => A` and `A => a`. -/
def coverRules : List (Rule Symbol) :=
  [⟨0, .nonTerminal "S", [.nonTerminal "A"]⟩, ⟨1, .nonTerminal "A", [.terminal "a"]⟩]

/-- The table of these rules, none of which ends with an end-marker. -/
def coverTable : DecisionTable Symbol :=
  .ofRuleSet ⟨coverRules, by decide, by decide, by decide⟩

/-- The tokens `a <eos>`. -/
def coverStream : TokenStream Symbol :=
  .ofKinds [.terminal "a", .endMarker]

/-- The moves `A => a` and `S => A`, which complete the parse, and once more the first. -/
def coverMoves : List (Move Symbol) :=
  [⟨coverTable.rules.itemAt ⟨1, .nonTerminal "A", [.terminal "a"]⟩ 0, none⟩,
    ⟨coverTable.rules.itemAt ⟨0, .nonTerminal "S", [.nonTerminal "A"]⟩ 0, none⟩,
    ⟨coverTable.rules.itemAt ⟨1, .nonTerminal "A", [.terminal "a"]⟩ 0, none⟩]

/-- On `a <eos>` the moves `A => a` and `S => A` complete the parse and pass over
the end-marker.  Another `A => a`, with no `a` on top, fails and leaves the tree
over the `a` alone. -/
theorem tokens_conserved_cover :
    ∃ branch, Problem.Reachable ⟨coverTable, coverStream⟩ branch ∧ branch.done = true ∧
      branch.error.isSome = true ∧ branch.cursor = 2 ∧
      branch.stack.toList.flatMap Tree.leaves = coverStream.tokens.take 1 ∧
      branch.result = ⟨branch.stack.toList.reverse.map Token.erase, branch.error⟩ := by
  have known : ∀ move ∈ coverMoves, Problem.Knows ⟨coverTable, coverStream⟩ move := by
    decide +kernel
  have reachable := Problem.Reachable.replay known
  obtain ⟨_, _, _, _, result⟩ := tokens_conserved reachable
  refine ⟨_, reachable, by decide +kernel, by decide +kernel, by decide +kernel, by decide +kernel, result⟩

end ShiftReduce
