/-
  ShiftReduce.Proofs.Branch.Completeness
  ────────────────────────────────
  **EVERY TREE HAS A BRANCH THAT BUILDS IT.**

  A tree is built in post-order: the first leaf of a child is shifted, the
  child is built from it, and once all children are on the stack they are
  reduced.  At each of these moves the item it follows matches the branch, so
  it is proposed, and the checks it has to pass are met.

  Main statements: `grows_of_builtBy` (a tree is built above any stack that it may
  sit on), `endsIn_of_acceptedByRule` and `endsIn_of_acceptedAsStart`.
-/
import ShiftReduce.Proofs.Branch.Soundness
import ShiftReduce.Proofs.Grammar.Chains

namespace ShiftReduce

open Relation

variable {S : Type} [DecidableEq S] [GrammarSymbol S]

namespace Problem

/-! ## §1. Sequences of moves. -/

/-- That many moves, all of which go through, lead from one branch to another. -/
inductive Leads (problem : Problem S) : Nat → Branch S → Branch S → Prop where
  | refl (branch : Branch S) : Leads problem 0 branch branch
  | snoc {count : Nat} {first middle last : Branch S} {move : Move S}
      (leads : Leads problem count first middle) (advances : problem.Advances middle move last) :
      Leads problem (count + 1) first last

variable {problem : Problem S}

theorem Leads.trans {count more : Nat} {first middle last : Branch S}
    (one : problem.Leads count first middle) (other : problem.Leads more middle last) :
    problem.Leads (count + more) first last := by
  induction other with
  | refl => exact one
  | snoc _ advances ih => exact .snoc (ih one) advances

/-- A sequence of moves is a run if the bound on the moves allows so many. -/
theorem Leads.run {count : Nat} {first last : Branch S} (leads : problem.Leads count first last)
    {maxSteps : Option Nat} (within : ∀ bound, maxSteps = some bound → count ≤ bound) :
    ∃ history : List (Move S), history.length = count ∧
      problem.machine.Run maxSteps 0 first history last := by
  induction leads with
  | refl branch => exact ⟨[], rfl, .nil _ _⟩
  | @snoc count first middle last move leads advances ih =>
    obtain ⟨history, hlength, run⟩ := ih fun bound h => Nat.le_of_succ_le (within bound h)
    refine ⟨history ++ [move], by rw [List.length_append, hlength, List.length_singleton], ?_⟩
    have going : problem.machine.ending? maxSteps (0 + history.length) middle = none := by
      refine Machine.ending?_eq_none_iff.2 ⟨advances.going, ?_, List.ne_nil_of_mem advances.proposed⟩
      cases hbound : maxSteps with
      | none => rfl
      | some bound =>
        have := within bound hbound
        rw [Option.any_some, decide_eq_false_iff_not]
        omega
    have played : (problem.machine.play middle move).1 = last := by
      show (problem.apply move middle).branch = last
      rw [advances.through]
      rfl
    rw [← played]
    exact run.snoc going advances.proposed

/-! ## §2. The moves that build a tree. -/

/-- The branch has these trees on its stack, is not over, and knows which token
comes next. -/
structure Ready (problem : Problem S) (branch : Branch S) (trees : List (Token S)) (cursor : Nat) :
    Prop where
  stands : branch.Stands trees cursor false
  linked : problem.Linked trees cursor

variable {branch : Branch S} {below : List (Token S)} {cursor : Nat} {rule : Rule S}

theorem Ready.going {trees : List (Token S)} (ready : problem.Ready branch trees cursor) :
    branch.isOver = false :=
  Branch.isOver_eq_false_iff.2 ⟨ready.stands.done, ready.stands.error⟩

theorem Ready.clean {trees : List (Token S)} (ready : problem.Ready branch trees cursor) :
    branch.stack.popped = [] := by
  rw [ready.stands.stack]

/-- The items on the stack up to the dot fit if the stack shows the beginning of the rule. -/
theorem matches_of_shown {shown : List (Token S)} {later : List S} {last : Token S}
    (ready : problem.Ready branch ((shown ++ [last]).reverse ++ below) cursor)
    (hrule : rule ∈ problem.table.rules.toList)
    (kinds : rule.rhs = (shown ++ [last]).map Token.kind ++ later)
    (whole : (problem.table.rules.itemAt rule shown.length).action = .accept →
      below = [] ∧ later = [] ∧ cursor = problem.stream.size)
    (next : (problem.table.rules.itemAt rule shown.length).action = .shift →
      ∃ lexeme, problem.stream.lexemes[cursor]? = some lexeme ∧
        lexeme.kind ∈ (problem.table.rules.itemAt rule shown.length).lookaheads) :
    problem.Matches branch (problem.table.rules.itemAt rule shown.length) := by
  have hstack := ready.stands.stack
  have hcursor := ready.stands.cursor
  constructor
  · refine ⟨last, by rw [hstack, List.reverse_concat]; rfl, ?_⟩
    refine DecisionTable.mem_items.2 ⟨rule, hrule, shown.length, ?_, rfl⟩
    rw [kinds]
    simp
  · have length : ((shown ++ [last]).map Token.kind).length = shown.length + 1 := by simp
    show (rule.rhs.take (shown.length + 1)).reverse <+: _
    rw [kinds, ← length, List.take_left, hstack]
    refine ⟨below.map Token.kind, ?_⟩
    rw [← List.map_reverse, ← List.map_append]
  · intro accepts
    obtain ⟨rfl, rfl, consumed⟩ := whole accepts
    rw [hcursor, UndoStack.size, hstack]
    exact ⟨by simp, consumed⟩
  · rw [hcursor]
    exact next

/-- The next token is shifted if it can begin what the rule goes on with. -/
theorem Ready.shift {shown : List (Token S)} {next : S} {later : List S} {token : Token S}
    (ready : problem.Ready branch (shown.reverse ++ below) cursor)
    (hrule : rule ∈ problem.table.rules.toList) (some : shown ≠ [])
    (kinds : rule.rhs = shown.map Token.kind ++ next :: later)
    (hget : problem.stream.get? cursor = .some token)
    (opens : token.kind ∈ problem.table.rules.first next) :
    ∃ after, problem.Leads 1 branch after ∧
      problem.Ready after (token :: (shown.reverse ++ below)) (cursor + 1) := by
  obtain ⟨shown, last, rfl⟩ : ∃ init last, shown = init ++ [last] :=
    (List.eq_nil_or_concat' shown).resolve_left some
  obtain ⟨lexeme, hlexeme, leaf, hnext⟩ := TokenStream.get?_eq_some hget
  have kind : token.kind = lexeme.kind := by
    rw [← Token.kind_erase, leaf]
    rfl
  have after : rule.rhs[shown.length + 1]? = .some next := by
    rw [kinds, List.getElem?_append_right (by simp)]
    simp
  have lookaheads := problem.table.rules.lookaheads_itemAt after
  have action : (problem.table.rules.itemAt rule shown.length).action = .shift := by
    refine RuleSet.action_itemAt_eq_shift.2 ?_
    rw [kinds]
    simp
  have matched := matches_of_shown ready hrule kinds
    (fun accepts => by rw [action] at accepts; cases accepts)
    (fun _ => ⟨lexeme, hlexeme, by rw [lookaheads, ← kind]; exact opens⟩)
  -- The token is a lookahead of the item, which is what the hint settles for.
  have met : (Move.ofItem (problem.table.rules.itemAt rule shown.length)).HintMet
      (token :: ((shown ++ [last]).reverse ++ below)) := by
    intro _ _
    refine ⟨token, rfl, .inr ?_⟩
    show token.kind ∈ (problem.table.rules.itemAt rule shown.length).lookaheads
    rw [lookaheads]
    exact opens
  have transition : problem.Transition (problem.table.rules.itemAt rule shown.length)
      branch.stack.items branch.cursor (token :: ((shown ++ [last]).reverse ++ below))
      (cursor + 1) := by
    rw [ready.stands.stack, ready.stands.cursor]
    exact .shift action hget
  obtain ⟨moved, advances, stands⟩ := advances_of_matches ready.clean ready.going
    (by rw [ready.stands.stack, ready.stands.cursor]; exact ready.linked) matched transition met
  have unfinished : (problem.table.rules.itemAt rule shown.length).isAccept = false :=
    decide_eq_false (by rw [action]; exact fun h => by cases h)
  rw [unfinished] at stands
  refine ⟨_, .snoc (.refl _) advances, ?_, ?_⟩
  · -- With two trees on the stack nothing is completed.
    rcases stands_complete stands with going | ⟨_, _, single, _⟩
    · exact going
    · have := congrArg List.length single
      simp at this
  · intro top htop
    cases htop
    exact hnext

/-- The right-hand side of a rule on top of the stack is contracted if the
left-hand side may sit there; if that is to accept, nothing may be left. -/
theorem Ready.contract {children : List (Token S)}
    (ready : problem.Ready branch (children.reverse ++ below) cursor)
    (hrule : rule ∈ problem.table.rules.toList) (kinds : children.map Token.kind = rule.rhs)
    (follows : problem.table.canFollow (below.head?.map Token.kind) rule.lhs = true)
    (whole : rule.isTerminating = true → below = [] ∧ cursor = problem.stream.size) :
    ∃ moved : Branch S, problem.Leads 1 branch (problem.complete moved) ∧
      moved.Stands (Token.reduce rule.lhs children :: below) cursor rule.isTerminating ∧
      problem.Linked (Token.reduce rule.lhs children :: below) cursor := by
  have some : children ≠ [] := by
    intro none
    rw [none] at kinds
    exact problem.table.rules.rhs_ne_nil rule hrule kinds.symm
  obtain ⟨shown, last, rfl⟩ : ∃ init last, children = init ++ [last] :=
    (List.eq_nil_or_concat' children).resolve_left some
  have length : rule.rhs.length = shown.length + 1 := by
    rw [← kinds]
    simp
  have action : (problem.table.rules.itemAt rule shown.length).action ≠ .shift := by
    intro shifts
    have before := RuleSet.action_itemAt_eq_shift.1 shifts
    omega
  have accepting := problem.table.rules.isAccept_itemAt (Nat.le_of_eq length)
  have whole' : (problem.table.rules.itemAt rule shown.length).action = .accept →
      below = [] ∧ cursor = problem.stream.size := by
    intro accepts
    exact whole (RuleSet.action_itemAt_eq_accept.1 accepts).2
  have matched := matches_of_shown ready hrule (by rw [kinds, List.append_nil])
    (fun accepts => ⟨(whole' accepts).1, rfl, (whole' accepts).2⟩)
    (fun shifts => absurd shifts action)
  -- With the dot at the end of the rule there is no hint.
  have met : (Move.ofItem (problem.table.rules.itemAt rule shown.length)).HintMet
      (Token.reduce rule.lhs (shown ++ [last]) :: below) := by
    intro expected hexpected
    have beyond : rule.rhs[shown.length + 1]? = none := List.getElem?_eq_none (by omega)
    rw [show (Move.ofItem (problem.table.rules.itemAt rule shown.length)).hint =
      rule.rhs[shown.length + 1]? from rfl, beyond] at hexpected
    cases hexpected
  have transition : problem.Transition (problem.table.rules.itemAt rule shown.length)
      branch.stack.items branch.cursor (Token.reduce rule.lhs (shown ++ [last]) :: below) cursor := by
    rw [ready.stands.stack, ready.stands.cursor]
    exact .contract action kinds follows fun accepts => Nat.le_of_eq (whole' accepts).2.symm
  obtain ⟨moved, advances, stands⟩ := advances_of_matches ready.clean ready.going
    (by rw [ready.stands.stack, ready.stands.cursor]; exact ready.linked) matched transition met
  rw [accepting] at stands
  refine ⟨moved, .snoc (.refl _) advances, stands, ?_⟩
  intro top htop
  cases htop
  -- The node takes over the link of its last child.
  have linked := ready.linked last (by rw [List.reverse_concat]; rfl)
  rw [← linked]
  simp [Token.reduce]

/-- The symbol that comes next in a rule may sit above what the stack shows of it. -/
theorem canFollow_of_shown {shown : List (Token S)} {next : S} {later : List S}
    (below : List (Token S)) (hrule : rule ∈ problem.table.rules.toList) (some : shown ≠ [])
    (kinds : rule.rhs = shown.map Token.kind ++ next :: later) :
    problem.table.canFollow ((shown.reverse ++ below).head?.map Token.kind) next = true := by
  obtain ⟨shown, last, rfl⟩ : ∃ init last, shown = init ++ [last] :=
    (List.eq_nil_or_concat' shown).resolve_left some
  rw [List.reverse_concat]
  refine DecisionTable.canFollow_of_adjacent ⟨rule, hrule, shown.length, ?_, ?_⟩
  · rw [kinds]
    simp
  · rw [kinds, List.getElem?_append_right (by simp)]
    simp

/-! ## §3. Subtrees. -/

/-- What the search needs to know of a grammar and a stream: left-hand sides are
no terminals, and tokens are. -/
structure Typed (problem : Problem S) : Prop where
  lhs : ∀ rule ∈ problem.table.rules.toList, GrammarSymbol.isTerminal rule.lhs = false
  token : ∀ lexeme ∈ problem.stream.lexemes, GrammarSymbol.isTerminal lexeme.kind = true

/-- A tree of the start symbol over tokens is no leaf. -/
theorem Typed.children_ne_nil (typed : problem.Typed) {tree : ParseTree S}
    (kind : tree.kind = problem.table.start)
    (leaves : ∀ leaf ∈ tree.yield, leaf ∈ problem.stream.lexemes) : tree.children ≠ [] := by
  intro leaf
  obtain ⟨rule, hrule, hlhs⟩ := problem.table.exists_rule_of_start
  have nonterminal := typed.lhs rule hrule
  have mem : tree.label ∈ tree.yield := by
    rw [Tree.eq_node tree, leaf, Tree.yield_leaf, Tree.label_node]
    exact List.mem_cons_self
  rw [hlhs, ← kind] at nonterminal
  rw [show tree.kind = tree.label.kind from rfl, typed.token _ (leaves _ mem)] at nonterminal
  cases nonterminal

omit [DecidableEq S] [GrammarSymbol S] in
theorem get?_of_drop {stream : TokenStream S} {lexeme : Lexeme S} {rest : List (Lexeme S)}
    (h : stream.lexemes.drop cursor = lexeme :: rest) :
    ∃ token, stream.get? cursor = some token ∧ token.erase = .node lexeme [] := by
  have hlexeme : stream.lexemes[cursor]? = some lexeme := by
    rw [← List.head?_drop, h]
    rfl
  refine ⟨_, by rw [TokenStream.get?, hlexeme]; rfl, Token.erase_leaf _⟩

/-- The first leaf of a tree is a first terminal of what the tree stands for. -/
theorem mem_first_of_yield (typed : problem.Typed) {tree : ParseTree S}
    (built : tree.BuiltBy problem.table.rules.inner) {lexeme : Lexeme S} {rest : List (Lexeme S)}
    (mem : lexeme ∈ problem.stream.lexemes) (yield : tree.yield = lexeme :: rest) :
    lexeme.kind ∈ problem.table.rules.first tree.kind := by
  have terminal := typed.token lexeme mem
  rcases ParseTree.opens_first (built.mono problem.table.rules.inner_subset) yield with rfl | path
  · exact (RuleSet.mem_first_of_isTerminal terminal).2 rfl
  · obtain ⟨_, ⟨rule, hrule, hlhs, _⟩, _⟩ := TransGen.head'_iff.1 path
    have inner : GrammarSymbol.isTerminal tree.kind = false := by
      rw [← hlhs]
      exact typed.lhs rule hrule
    exact (RuleSet.mem_first_of_not_isTerminal inner).2 ⟨path, terminal⟩

/-- The branch is not accepted too early, with a tree alone on the stack whose
leaves begin at the cursor: if no token is left after it, it does not stand for
the start symbol, neither itself nor through a chain of one-symbol rules. -/
def Unfinished (problem : Problem S) (below : List (Token S)) (tree : ParseTree S) (cursor : Nat) :
    Prop :=
  below = [] → problem.table.acceptsExplicitly = false →
    (∀ leaf ∈ tree.yield, GrammarSymbol.isEndMarker leaf.kind = false) ∧
      (problem.SettledAt (cursor + tree.yield.length) →
        ¬ReflTransGen (Link problem.table.rules.toList) tree.kind problem.table.start)

/-- From its first leaf on the stack, the tree is built above whatever it may
sit on, by as many moves as it has further nodes. -/
def Grows (problem : Problem S) (tree : ParseTree S) : Prop :=
  ∀ (branch : Branch S) (below : List (Token S)) (cursor : Nat) (first : Token S)
    (rest : List (Lexeme S)),
    problem.stream.lexemes.drop cursor = tree.yield ++ rest →
    problem.stream.get? cursor = some first →
    problem.Ready branch (first :: below) (cursor + 1) →
    problem.table.canFollow (below.head?.map Token.kind) tree.kind = true →
    problem.Unfinished below tree cursor →
    ∃ token after, token.erase = tree ∧ problem.Leads (tree.size - 1) branch after ∧
      problem.Ready after (token :: below) (cursor + tree.yield.length)

theorem grows_leaf (problem : Problem S) (lexeme : Lexeme S) : problem.Grows (.node lexeme []) := by
  intro branch below cursor first rest hdrop hget ready _ _
  rw [Tree.yield_leaf, List.singleton_append] at hdrop
  obtain ⟨token, hget', leaf⟩ := get?_of_drop hdrop
  rw [hget, Option.some.injEq] at hget'
  subst hget'
  refine ⟨first, branch, leaf, ?_, ?_⟩
  · rw [Tree.size_node]
    exact .refl branch
  · rw [Tree.yield_leaf]
    exact ready

/-- With some children of a node on the stack, the remaining ones are put on top of them. -/
theorem Ready.others (typed : problem.Typed) (hrule : rule ∈ problem.table.rules.toList)
    {remaining : List (ParseTree S)}
    (grow : ∀ tree ∈ remaining, tree.BuiltBy problem.table.rules.inner ∧ problem.Grows tree)
    {shown : List (Token S)} {rest : List (Lexeme S)} (some : shown ≠ [])
    (kinds : rule.rhs = shown.map Token.kind ++ remaining.map ParseTree.kind)
    (ready : problem.Ready branch (shown.reverse ++ below) cursor)
    (hdrop : problem.stream.lexemes.drop cursor = remaining.flatMap Tree.yield ++ rest) :
    ∃ tokens after, tokens.map Token.erase = remaining ∧
      problem.Leads (remaining.map Tree.size).sum branch after ∧
      problem.Ready after ((shown ++ tokens).reverse ++ below)
        (cursor + (remaining.flatMap Tree.yield).length) := by
  induction remaining generalizing branch shown cursor with
  | nil =>
    refine ⟨[], branch, rfl, .refl branch, ?_⟩
    rw [List.append_nil]
    exact ready
  | cons tree others ih =>
    obtain ⟨built, grows⟩ := grow tree (by simp)
    rw [List.flatMap_cons, List.append_assoc] at hdrop
    -- The first leaf of the next child is shifted, and the child is built from it.
    obtain ⟨lexeme, leaves, hyield⟩ := List.exists_cons_of_ne_nil tree.yield_ne_nil
    have hdrop' := hdrop
    rw [hyield, List.cons_append] at hdrop'
    obtain ⟨first, hget, leaf⟩ := get?_of_drop hdrop'
    have mem : lexeme ∈ problem.stream.lexemes := by
      refine List.mem_of_mem_drop (i := cursor) ?_
      rw [hdrop']
      exact List.mem_cons_self
    have opens : first.kind ∈ problem.table.rules.first tree.kind := by
      rw [← Token.kind_erase, leaf]
      exact mem_first_of_yield typed built mem hyield
    obtain ⟨shifted, one, ready⟩ := ready.shift hrule some kinds hget opens
    have follows := canFollow_of_shown below hrule some kinds
    -- The children shown lie below, so the tree is never alone on the stack.
    have unfinished : problem.Unfinished (shown.reverse ++ below) tree cursor := by
      intro empty
      simp [some] at empty
    obtain ⟨token, grown, same, more, ready⟩ :=
      grows shifted _ cursor first _ hdrop hget ready follows unfinished
    have kinds' : rule.rhs = (shown ++ [token]).map Token.kind ++ others.map ParseTree.kind := by
      rw [kinds, List.map_append, List.map_cons, List.append_assoc, ← same, Token.kind_erase]
      rfl
    have ready' : problem.Ready grown ((shown ++ [token]).reverse ++ below)
        (cursor + tree.yield.length) := by
      rw [List.reverse_concat]
      exact ready
    have hdrop'' : problem.stream.lexemes.drop (cursor + tree.yield.length) =
        others.flatMap Tree.yield ++ rest := by
      rw [← List.drop_drop, hdrop, List.drop_left]
    obtain ⟨tokens, after, sames, most, ready⟩ :=
      ih (fun tree mem => grow tree (List.mem_cons_of_mem _ mem)) (by simp) kinds' ready' hdrop''
    refine ⟨token :: tokens, after, by rw [List.map_cons, same, sames], ?_, ?_⟩
    · have count : ((tree :: others).map Tree.size).sum =
          1 + (tree.size - 1) + (others.map Tree.size).sum := by
        have := tree.size_pos
        rw [List.map_cons, List.sum_cons]
        omega
      rw [count]
      exact (one.trans more).trans most
    · rw [List.append_assoc, List.singleton_append] at ready
      rw [List.flatMap_cons, List.length_append, ← Nat.add_assoc]
      exact ready

/-- While the first child of a node is alone on the stack the branch is not
accepted: another child is to come, or the node stands for the start symbol
through one more one-symbol rule. -/
theorem unfinished_first (hrule : rule ∈ problem.table.rules.toList) {child : ParseTree S}
    {others : List (ParseTree S)} (kinds : (child :: others).map ParseTree.kind = rule.rhs)
    {rest : List (Lexeme S)}
    (hdrop : problem.stream.lexemes.drop cursor = (child :: others).flatMap Tree.yield ++ rest)
    (unfinished : below = [] → problem.table.acceptsExplicitly = false →
      (∀ leaf ∈ (child :: others).flatMap Tree.yield, GrammarSymbol.isEndMarker leaf.kind = false) ∧
        (problem.SettledAt (cursor + ((child :: others).flatMap Tree.yield).length) →
          ¬TransGen (Link problem.table.rules.toList) rule.lhs problem.table.start)) :
    problem.Unfinished below child cursor := by
  intro empty implicit
  obtain ⟨unmarked, chain⟩ := unfinished empty implicit
  rw [List.flatMap_cons] at hdrop unmarked chain
  refine ⟨fun leaf mem => unmarked leaf (List.mem_append_left _ mem), ?_⟩
  intro settled path
  cases others with
  | nil =>
    rw [List.flatMap_nil, List.append_nil] at chain
    exact chain settled (.head' ⟨rule, hrule, rfl, kinds.symm⟩ path)
  | cons next more =>
    -- The first leaf of the next child is still to come, and it is no end-marker.
    obtain ⟨leaf, leaves, hleaf⟩ := List.exists_cons_of_ne_nil next.yield_ne_nil
    have left : problem.stream.lexemes.drop (cursor + child.yield.length) =
        leaf :: (leaves ++ more.flatMap Tree.yield ++ rest) := by
      rw [← List.drop_drop, hdrop, List.append_assoc, List.drop_left, List.flatMap_cons, hleaf]
      simp
    have mem : leaf ∈ child.yield ++ (next :: more).flatMap Tree.yield := by
      rw [List.flatMap_cons, hleaf]
      simp
    rcases settled with none | ⟨marker, one, marks⟩
    · rw [left] at none
      cases none
    · rw [left, List.cons.injEq] at one
      rw [← one.1, unmarked leaf mem] at marks
      cases marks

/-- From the first leaf on the stack, all children of a node are put on the stack. -/
theorem Ready.children (typed : problem.Typed) (hrule : rule ∈ problem.table.rules.toList)
    {child : ParseTree S} {others : List (ParseTree S)}
    (kinds : (child :: others).map ParseTree.kind = rule.rhs)
    (grow : ∀ tree ∈ child :: others,
      ParseTree.BuiltBy problem.table.rules.inner tree ∧ problem.Grows tree)
    {first : Token S} {rest : List (Lexeme S)}
    (hdrop : problem.stream.lexemes.drop cursor = (child :: others).flatMap Tree.yield ++ rest)
    (hget : problem.stream.get? cursor = some first)
    (ready : problem.Ready branch (first :: below) (cursor + 1))
    (follows : problem.table.canFollow (below.head?.map Token.kind) rule.lhs = true)
    (unfinished : problem.Unfinished below child cursor) :
    ∃ (tokens : List (Token S)) (after : Branch S), tokens.map Token.erase = child :: others ∧
      problem.Leads (((child :: others).map Tree.size).sum - 1) branch after ∧
      problem.Ready after (tokens.reverse ++ below)
        (cursor + ((child :: others).flatMap Tree.yield).length) := by
  rw [List.flatMap_cons, List.append_assoc] at hdrop
  have opens : Opens problem.table.rules.toList rule.lhs child.kind :=
    ⟨rule, hrule, rfl, by rw [← kinds]; rfl⟩
  -- The first child begins with the leaf on the stack, the others with shifts.
  obtain ⟨token, grown, same, one, ready⟩ := (grow child (by simp)).2 branch below cursor first _
    hdrop hget ready (DecisionTable.canFollow_of_opens follows opens) unfinished
  have kinds' : rule.rhs = [token].map Token.kind ++ others.map ParseTree.kind := by
    rw [← kinds, ← same, List.map_cons, Token.kind_erase]
    rfl
  have hdrop' : problem.stream.lexemes.drop (cursor + child.yield.length) =
      others.flatMap Tree.yield ++ rest := by
    rw [← List.drop_drop, hdrop, List.drop_left]
  obtain ⟨tokens, after, sames, more, ready⟩ := Ready.others typed hrule
    (fun tree mem => grow tree (List.mem_cons_of_mem _ mem)) (List.cons_ne_nil token []) kinds' ready
    hdrop'
  refine ⟨token :: tokens, after, by rw [List.map_cons, same, sames], ?_, ?_⟩
  · have count : ((child :: others).map Tree.size).sum - 1 =
        (child.size - 1) + (others.map Tree.size).sum := by
      have := child.size_pos
      rw [List.map_cons, List.sum_cons]
      omega
    rw [count]
    exact one.trans more
  · rw [List.flatMap_cons, List.length_append, ← Nat.add_assoc]
    exact ready

/-- Every tree that inner rules build is built by a branch. -/
theorem grows_of_builtBy (typed : problem.Typed) {tree : ParseTree S}
    (built : tree.BuiltBy problem.table.rules.inner) : problem.Grows tree := by
  refine built.induct (motive := problem.Grows) (grows_leaf problem) ?_
  intro rule hinner child others kinds ih branch below cursor first rest hdrop hget ready follows
    unfinished
  obtain ⟨hrule, hterminating⟩ := List.mem_filter.1 hinner
  have yield : (ParseTree.ofChildren rule.lhs (child :: others)).yield =
      (child :: others).flatMap Tree.yield := Tree.yield_node _ (List.cons_ne_nil child others)
  unfold Unfinished at unfinished
  rw [yield] at hdrop unfinished ⊢
  -- A chain from the left-hand side of any length is excluded, so one of positive length is.
  have first_unfinished := unfinished_first hrule kinds hdrop fun empty implicit =>
    ⟨(unfinished empty implicit).1, fun settled path =>
      (unfinished empty implicit).2 settled path.to_reflTransGen⟩
  obtain ⟨tokens, complete, same, count, ready⟩ :=
    Ready.children typed hrule kinds ih hdrop hget ready follows first_unfinished
  have kinds' : tokens.map Token.kind = rule.rhs := by
    rw [← kinds, ← same, Token.map_kind_erase]
  have inner : rule.isTerminating = false := by simpa using hterminating
  obtain ⟨moved, last, stands, linked⟩ := ready.contract hrule kinds' follows fun terminating => by
    rw [inner] at terminating
    cases terminating
  rw [inner] at stands
  refine ⟨Token.reduce rule.lhs tokens, problem.complete moved, ?_, ?_, ?_, linked⟩
  · rw [Token.erase_reduce, same]
  · rw [ParseTree.size_ofChildren]
    exact count.trans last
  · rcases stands_complete stands with going | ⟨_, implicit, single, settled⟩
    · exact going
    · -- It would be complete only if the node were alone, and of the start symbol.
      rw [List.map_cons, List.cons.injEq] at single
      have empty : below = [] := List.map_eq_nil_iff.1 single.2
      have start : rule.lhs = problem.table.start := single.1
      exact absurd (start ▸ ReflTransGen.refl) ((unfinished empty implicit).2 settled)

/-! ## §4. Whole trees. -/

/-- The first token alone does not complete a branch. -/
theorem ready_start (typed : problem.Typed) {lexeme : Lexeme S} {rest : List (Lexeme S)}
    (hlexemes : problem.stream.lexemes = lexeme :: rest) :
    ∃ first, problem.stream.get? 0 = some first ∧ problem.Ready problem.start [first] 1 := by
  have hdrop : problem.stream.lexemes.drop 0 = lexeme :: rest := hlexemes
  obtain ⟨first, hget, leaf⟩ := get?_of_drop hdrop
  obtain ⟨_, _, _, hnext⟩ := TokenStream.get?_eq_some hget
  refine ⟨first, hget, ?_⟩
  rcases start_cases problem with ⟨token, hget', moved, hstart, stands⟩ | ⟨none, _⟩
  · rw [hget, Option.some.injEq] at hget'
    subst hget'
    rw [hstart]
    refine ⟨?_, fun top htop => by cases htop; exact hnext⟩
    rcases stands_complete stands with going | ⟨_, _, single, _⟩
    · exact going
    · -- The start symbol is no terminal, but the token is.
      have terminal := typed.token lexeme (by rw [hlexemes]; exact List.mem_cons_self)
      obtain ⟨rule, hrule, hlhs⟩ := problem.table.exists_rule_of_start
      have nonterminal := typed.lhs rule hrule
      rw [List.map_singleton, List.singleton_inj, ← Token.kind_erase, leaf] at single
      rw [hlhs, ← single] at nonterminal
      rw [show ParseTree.kind (.node lexeme []) = lexeme.kind from rfl, terminal] at nonterminal
      cases nonterminal
  · rw [hget] at none
    cases none

/-- All children of a tree over the first tokens are put on the empty stack. -/
theorem ready_children (typed : problem.Typed) (hrule : rule ∈ problem.table.rules.toList)
    {child : ParseTree S} {others : List (ParseTree S)}
    (kinds : (child :: others).map ParseTree.kind = rule.rhs)
    (built : ∀ tree ∈ child :: others, ParseTree.BuiltBy problem.table.rules.inner tree)
    (follows : problem.table.canFollow none rule.lhs = true) {rest : List (Lexeme S)}
    (hlexemes : problem.stream.lexemes = (child :: others).flatMap Tree.yield ++ rest)
    (unfinished : problem.Unfinished [] child 0) :
    ∃ (tokens : List (Token S)) (after : Branch S), tokens.map Token.erase = child :: others ∧
      tokens.map Token.kind = rule.rhs ∧
      problem.Leads (((child :: others).map Tree.size).sum - 1) problem.start after ∧
      problem.Ready after (tokens.reverse ++ []) ((child :: others).flatMap Tree.yield).length := by
  obtain ⟨lexeme, leaves, hyield⟩ := List.exists_cons_of_ne_nil child.yield_ne_nil
  have nonempty : problem.stream.lexemes =
      lexeme :: (leaves ++ others.flatMap Tree.yield ++ rest) := by
    rw [hlexemes, List.flatMap_cons, hyield]
    simp
  obtain ⟨first, hget, ready⟩ := ready_start typed nonempty
  obtain ⟨tokens, after, same, leads, ready⟩ := Ready.children typed hrule kinds
    (fun tree mem => ⟨built tree mem, grows_of_builtBy typed (built tree mem)⟩)
    (by rw [List.drop_zero, hlexemes]) hget ready follows unfinished
  refine ⟨tokens, after, same, ?_, leads, by rw [Nat.zero_add] at ready; exact ready⟩
  rw [← kinds, ← same, Token.map_kind_erase]

/-- A branch that is done with a single tree has this tree as its result. -/
theorem endsIn_of_leads {count : Nat} {final : Branch S} {token : Token S}
    (leads : problem.Leads count problem.start final) (stands : final.Stands [token] cursor true)
    {maxSteps : Option Nat} (within : ∀ bound, maxSteps = some bound → count ≤ bound) :
    problem.machine.EndsIn maxSteps ⟨[token.erase], none⟩ := by
  obtain ⟨history, _, run⟩ := leads.run within
  refine ⟨history, final, run, ?_⟩
  have ended : problem.machine.isOver final = true := by
    show (final.done || final.error.isSome) = true
    rw [stands.done, Bool.true_or]
  have result : final.result = ⟨[token.erase], none⟩ := by
    rw [Branch.result, stands.error, stands.stack]
    rfl
  rw [Machine.ending?_of_isOver ended]
  exact congrArg some result

/-- Every tree that an accepting item can end with is the result of a branch,
unless the bound on the moves is smaller than the number of its nodes but one. -/
theorem endsIn_of_acceptedByRule (typed : problem.Typed) {tree : ParseTree S}
    (h : problem.AcceptedByRule tree) {maxSteps : Option Nat}
    (within : ∀ bound, maxSteps = some bound → tree.size - 1 ≤ bound) :
    problem.machine.EndsIn maxSteps ⟨[tree], none⟩ := by
  obtain ⟨rule, hrule, terminating, ⟨root, kinds⟩, follows⟩ := h.root
  have built := h.built
  have yield := h.yield
  rw [root] at within yield ⊢
  cases hchildren : tree.children with
  | nil =>
    rw [hchildren] at kinds
    exact absurd kinds.symm (problem.table.rules.rhs_ne_nil rule hrule)
  | cons child others =>
    rw [hchildren] at kinds built within yield
    rw [ParseTree.ofChildren, Tree.yield_node _ (List.cons_ne_nil child others)] at yield
    -- In a table with accepting items nothing is completed early.
    have explicit : problem.table.acceptsExplicitly = true :=
      DecisionTable.acceptsExplicitly_iff.2 ⟨rule, hrule, terminating⟩
    have unfinished : problem.Unfinished [] child 0 := by
      intro _ implicit
      rw [explicit] at implicit
      cases implicit
    have hlexemes : problem.stream.lexemes = (child :: others).flatMap Tree.yield ++ [] := by
      rw [List.append_nil, yield]
    obtain ⟨tokens, after, same, kinds', leads, ready⟩ :=
      ready_children typed hrule kinds built follows hlexemes unfinished
    have consumed : ((child :: others).flatMap Tree.yield).length = problem.stream.size := by
      rw [yield]
      rfl
    obtain ⟨moved, last, stands, _⟩ := ready.contract hrule kinds' follows fun _ => ⟨rfl, consumed⟩
    rw [terminating] at stands
    rw [ParseTree.size_ofChildren] at within
    have result := endsIn_of_leads (leads.trans last) (stands_complete_of_done stands) within
    rw [Token.erase_reduce, same] at result
    exact result

/-- In a table without accepting items every tree of the start symbol is the
result of a branch, unless the bound on the moves is smaller than the number of
its nodes but one. -/
theorem endsIn_of_acceptedAsStart (typed : problem.Typed)
    (acyclic : Acyclic problem.table.rules.toList) {tree : ParseTree S}
    (h : problem.AcceptedAsStart tree)
    (unmarked : ∀ leaf ∈ tree.yield, GrammarSymbol.isEndMarker leaf.kind = false)
    {maxSteps : Option Nat} (within : ∀ bound, maxSteps = some bound → tree.size - 1 ≤ bound) :
    problem.machine.EndsIn maxSteps ⟨[tree], none⟩ := by
  have built := h.built
  obtain ⟨cursor, settled, yield⟩ := h.yield
  have hlexemes : problem.stream.lexemes = tree.yield ++ problem.stream.lexemes.drop cursor := by
    rw [yield, List.take_append_drop]
  have inner : tree.children ≠ [] := by
    refine typed.children_ne_nil h.kind fun leaf mem => ?_
    rw [hlexemes]
    exact List.mem_append_left _ mem
  cases hchildren : tree.children with
  | nil => exact absurd hchildren inner
  | cons child others =>
    obtain ⟨rule, hinner, root, kinds⟩ := built.root inner
    obtain ⟨hrule, hterminating⟩ := List.mem_filter.1 hinner
    have reduces : rule.isTerminating = false := by simpa using hterminating
    have start : rule.lhs = problem.table.start := by
      rw [← h.kind, root]
      rfl
    have children : ∀ tree ∈ child :: others, ParseTree.BuiltBy problem.table.rules.inner tree := by
      rw [← hchildren]
      exact fun _ => built.child
    rw [hchildren] at root kinds
    rw [root] at hlexemes unmarked within ⊢
    rw [ParseTree.ofChildren, Tree.yield_node _ (List.cons_ne_nil child others)] at hlexemes unmarked
    have settled' : problem.SettledAt ((child :: others).flatMap Tree.yield).length := by
      have left : problem.stream.lexemes.drop ((child :: others).flatMap Tree.yield).length =
          problem.stream.lexemes.drop cursor := by
        conv_lhs => rw [hlexemes]
        exact List.drop_left
      unfold SettledAt
      rw [left]
      exact settled
    -- A node of the start symbol below the root would lie on a cycle of one-symbol rules.
    have unfinished : problem.Unfinished [] child 0 :=
      unfinished_first hrule kinds (by rw [List.drop_zero, ← hlexemes]) fun _ _ =>
        ⟨unmarked, fun _ cycle => acyclic _ (start ▸ cycle)⟩
    obtain ⟨tokens, after, same, kinds', leads, ready⟩ := ready_children typed hrule kinds children
      (DecisionTable.canFollow_none_iff.2 (by rw [start])) hlexemes unfinished
    obtain ⟨moved, last, stands, _⟩ := ready.contract hrule kinds'
      (DecisionTable.canFollow_none_iff.2 (by rw [start])) fun terminating => by
        rw [reduces] at terminating
        cases terminating
    rw [reduces] at stands
    have accepted := stands_complete_of_settled stands h.implicit (by rw [← start]; rfl) settled'
    rw [ParseTree.size_ofChildren] at within
    have result := endsIn_of_leads (leads.trans last) accepted within
    rw [Token.erase_reduce, same] at result
    exact result

end Problem

end ShiftReduce
