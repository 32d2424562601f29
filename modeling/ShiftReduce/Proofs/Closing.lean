/-
  ShiftReduce.Proofs.Closing
  ────────────────────────────────
  **A RULE THAT CLOSES THE INPUT CHANGES NOTHING BUT THE ROOT.**

  A grammar without end-markers accepts a stream once its start symbol is alone
  on the stack.  The rule `S' => S e`, for a new symbol `S'` and an end-marker
  `e`, makes it accept by reducing to `S'` instead.  The two ways of accepting
  share no code, and the rule adds items, neighbours and a bottom symbol to the
  table; what the searches find is compared by way of the parse trees.

  Main statements: `isParse_closed_iff`, `Verdict.Decides.matches` and
  `closed_search_agrees`.
-/
import ShiftReduce.Proofs.Completeness

namespace ShiftReduce

open Relation

variable {S : Type} [GrammarSymbol S]

/-! ## §1. Closing a grammar. -/

/-- The rule derives from a symbol of its own the start symbol and an
end-marker, and comes before all rules. -/
structure Closes (closing : Rule S) (rules : List (Rule S)) (start marker : S) : Prop where
  first : ∀ rule ∈ rules, closing.id < rule.id
  fresh : ∀ rule ∈ rules, closing.lhs ∉ rule.symbols
  lhs : GrammarSymbol.isTerminal closing.lhs = false
  rhs : closing.rhs = [start, marker]
  terminal : GrammarSymbol.isTerminal marker = true
  ends : GrammarSymbol.isEndMarker marker = true

namespace Closes

variable {closing : Rule S} {rules : List (Rule S)} {start marker : S}

theorem lhs_ne (closes : Closes closing rules start marker) {rule : Rule S} (hrule : rule ∈ rules) :
    rule.lhs ≠ closing.lhs := by
  intro same
  exact closes.fresh rule hrule (same ▸ List.mem_cons_self)

theorem not_mem_rhs (closes : Closes closing rules start marker) {rule : Rule S}
    (hrule : rule ∈ rules) : closing.lhs ∉ rule.rhs :=
  fun mem => closes.fresh rule hrule (List.mem_cons_of_mem _ mem)

theorem mono {others : List (Rule S)} (h : others ⊆ rules)
    (closes : Closes closing rules start marker) : Closes closing others start marker :=
  { closes with
    first := fun rule hrule => closes.first rule (h hrule)
    fresh := fun rule hrule => closes.fresh rule (h hrule) }

theorem isTerminating (closes : Closes closing rules start marker) : closing.isTerminating = true := by
  rw [Rule.isTerminating, closes.rhs]
  exact closes.ends

/-- A rule with two symbols on its right-hand side closes no cycle. -/
theorem acyclic (closes : Closes closing rules start marker) (acyclic : Acyclic rules) :
    Acyclic (closing :: rules) := by
  intro symbol cycle
  refine acyclic symbol (TransGen.mono ?_ _ _ cycle)
  intro a b link
  obtain ⟨rule, hrule, hlhs, hrhs⟩ := link
  rcases List.mem_cons.1 hrule with rfl | hrule
  · rw [closes.rhs] at hrhs
    cases hrhs
  · exact ⟨rule, hrule, hlhs, hrhs⟩

/-- The closing rule is the only one that ends with an end-marker. -/
theorem endsMarked (closes : Closes closing rules start marker) (unmarked : Unmarked rules)
    (starts : ∃ rule ∈ rules, rule.lhs = start) : EndsMarked (closing :: rules) closing.lhs := by
  constructor
  · intro rule hrule
    rcases List.mem_cons.1 hrule with rfl | hrule
    · exact iff_of_true closes.isTerminating rfl
    · refine iff_of_false ?_ (closes.lhs_ne hrule)
      rw [unmarked.not_isTerminating hrule]
      exact Bool.false_ne_true
  · intro rule hrule
    rcases List.mem_cons.1 hrule with rfl | hrule
    · rw [closes.rhs, List.mem_cons, List.mem_singleton, not_or]
      constructor
      · intro same
        obtain ⟨rule, hrule, hlhs⟩ := starts
        exact closes.lhs_ne hrule (hlhs.trans same.symm)
      · intro same
        have nonterminal := closes.lhs
        rw [same, closes.terminal] at nonterminal
        cases nonterminal
    · exact closes.not_mem_rhs hrule

theorem customary (closes : Closes closing rules start marker)
    (lhs : ∀ rule ∈ rules, GrammarSymbol.isTerminal rule.lhs = false) (unmarked : Unmarked rules)
    (acyclic : Acyclic rules) (starts : ∃ rule ∈ rules, rule.lhs = start) :
    Customary (closing :: rules) closing.lhs where
  lhs := by
    intro rule hrule
    rcases List.mem_cons.1 hrule with rfl | hrule
    · exact closes.lhs
    · exact lhs rule hrule
  acyclic := closes.acyclic acyclic
  placed := .inl (closes.endsMarked unmarked starts)

variable [DecidableEq S]

/-- The closed grammar has a table if the grammar has one, and the closing rule
gives it its start symbol. -/
theorem exists_build (closes : Closes closing rules start marker) {others : List (Rule S)}
    (extended : others.Perm (closing :: rules)) (built : ∃ table, DecisionTable.build rules = .ok table) :
    ∃ table, DecisionTable.build others = .ok table ∧ table.start = closing.lhs := by
  obtain ⟨_, nonempty, nodup⟩ := DecisionTable.exists_build_iff.1 built
  have built' : ∃ table, DecisionTable.build others = .ok table := by
    refine DecisionTable.exists_build_iff.2 ⟨?_, ?_, ?_⟩
    · intro none
      rw [none] at extended
      cases extended.nil_eq
    · intro rule hrule
      rcases List.mem_cons.1 (extended.mem_iff.1 hrule) with rfl | hrule
      · rw [closes.rhs]
        exact List.cons_ne_nil _ _
      · exact nonempty rule hrule
    · refine (extended.map Rule.id).nodup_iff.2 (List.nodup_cons.2 ⟨?_, nodup⟩)
      intro mem
      obtain ⟨rule, hrule, same⟩ := List.mem_map.1 mem
      have := closes.first rule hrule
      omega
  obtain ⟨table, built'⟩ := built'
  refine ⟨table, built', DecisionTable.start_of_build built' (extended.mem_iff.2 List.mem_cons_self) ?_⟩
  intro rule hrule
  rcases List.mem_cons.1 (extended.mem_iff.1 hrule) with rfl | hrule
  · exact Nat.le_refl _
  · exact Nat.le_of_lt (closes.first rule hrule)

end Closes

/-! ## §2. Parse trees of the closed grammar. -/

/-- The node of kind `symbol` over a tree and the last token. -/
def ParseTree.closed (symbol : S) (last : Lexeme S) (tree : ParseTree S) : ParseTree S :=
  ofChildren symbol [tree, .node last []]

omit [GrammarSymbol S] in
theorem ParseTree.closed_injective {symbol : S} {last : Lexeme S} :
    Function.Injective (closed symbol last) := by
  intro tree other same
  exact (List.cons.inj (congrArg Tree.children same)).1

omit [GrammarSymbol S] in
theorem ParseTree.yield_closed (symbol : S) (last : Lexeme S) (tree : ParseTree S) :
    (closed symbol last tree).yield = tree.yield ++ [last] := by
  rw [closed, ofChildren, Tree.yield_node _ (List.cons_ne_nil _ _), List.flatMap_cons,
    List.flatMap_singleton, Tree.yield_leaf]

variable [DecidableEq S]

namespace Problem

variable {problem problem' : Problem S} {closing : Rule S} {marker : S} {last : Lexeme S}

/-- A tree of a terminal is a leaf. -/
theorem Typed.eq_leaf (typed : problem.Typed) {tree : ParseTree S}
    (built : tree.BuiltBy problem.table.rules.toList)
    (terminal : GrammarSymbol.isTerminal tree.kind = true) : ∃ lexeme, tree = .node lexeme [] := by
  cases tree with
  | node lexeme children =>
    cases children with
    | nil => exact ⟨lexeme, rfl⟩
    | cons child rest =>
      obtain ⟨rule, hrule, applies⟩ := built.root (List.cons_ne_nil child rest)
      rw [applies.kind_eq, typed.lhs rule hrule] at terminal
      cases terminal

/-- What the closing rule makes is a node over a tree of the start symbol and a token. -/
theorem eq_closed_of_applies {rules : List (Rule S)} {start : S} (typed : problem.Typed)
    (closes : Closes closing rules start marker) {tree : ParseTree S}
    (built : tree.BuiltBy problem.table.rules.toList) (applies : ParseTree.Applies closing tree) :
    ∃ inner lexeme, tree = ParseTree.closed closing.lhs lexeme inner ∧ inner.kind = start := by
  obtain ⟨root, kinds⟩ := applies
  rw [closes.rhs] at kinds
  obtain ⟨inner, _, hchildren, hinner, hrest⟩ := List.map_eq_cons_iff.1 kinds
  obtain ⟨leaf, rfl, hleaf⟩ := List.map_eq_singleton_iff.1 hrest
  -- The end-marker is a terminal, so nothing can stand below it.
  have terminal : GrammarSymbol.isTerminal leaf.kind = true := by
    rw [hleaf]
    exact closes.terminal
  have mem : leaf ∈ tree.children := by
    rw [hchildren]
    exact List.mem_cons_of_mem _ List.mem_cons_self
  obtain ⟨lexeme, rfl⟩ := typed.eq_leaf (built.child mem) terminal
  refine ⟨inner, lexeme, ?_, hinner⟩
  rw [root, hchildren]
  rfl

/-- The parse trees of the closed grammar are those of the grammar, each with the
last token under a new root. -/
theorem isParse_closed_iff
    (closes : Closes closing problem.table.rules.toList problem.table.start marker)
    (extended : ∀ rule, rule ∈ problem'.table.rules.toList ↔
      rule = closing ∨ rule ∈ problem.table.rules.toList)
    (start : problem'.table.start = closing.lhs) (typed' : problem'.Typed)
    (explicit : problem'.table.acceptsExplicitly = true)
    (lexemes : problem'.stream.lexemes = problem.sentence ++ [last]) (kind : last.kind = marker)
    {tree' : ParseTree S} :
    problem'.IsParse tree' ↔
      ∃ tree, problem.IsParse tree ∧ ParseTree.closed closing.lhs last tree = tree' := by
  have sentence : problem'.sentence = problem.sentence ++ [last] := by
    rw [sentence_of_explicit explicit, lexemes]
  constructor
  · intro h
    have yield := h.yield.trans sentence
    have inner := typed'.children_ne_nil h.kind fun leaf mem => by
      rw [lexemes, ← yield]
      exact mem
    -- The root is made by the closing rule, since no other rule is for its symbol.
    obtain ⟨rule, hrule, applies⟩ := h.built.root inner
    have lhs : rule.lhs = closing.lhs := by
      rw [← applies.kind_eq, h.kind, start]
    obtain rfl : rule = closing :=
      ((extended rule).1 hrule).resolve_right fun old => closes.lhs_ne old lhs
    obtain ⟨tree, lexeme, rfl, htree⟩ := eq_closed_of_applies typed' closes h.built applies
    rw [ParseTree.yield_closed] at yield
    obtain ⟨below, hlast⟩ := List.append_inj' yield rfl
    obtain rfl : lexeme = last := List.singleton_inj.1 hlast
    -- Below the root the closing rule has no place, because its symbol stands nowhere.
    have built : tree.BuiltBy problem'.table.rules.toList := h.built.child List.mem_cons_self
    refine ⟨tree, ⟨htree, built.without (fun other hother => ?_) (fun _ => closes.not_mem_rhs) ?_,
      below⟩, rfl⟩
    · rcases (extended other).1 hother with rfl | old
      · exact .inl rfl
      · exact .inr old
    · obtain ⟨first, hfirst, hlhs⟩ := problem.table.exists_rule_of_start
      rw [htree, ← hlhs]
      exact closes.lhs_ne hfirst
  · intro h
    obtain ⟨tree, parse, rfl⟩ := h
    have hclosing : closing ∈ problem'.table.rules.toList := (extended closing).2 (.inl rfl)
    refine ⟨start.symm, ?_, ?_⟩
    · refine .of_applies hclosing (ParseTree.applies_ofChildren ?_) fun child mem => ?_
      · rw [closes.rhs, ← parse.kind, ← kind]
        rfl
      · rcases List.mem_cons.1 mem with rfl | mem
        · exact parse.built.mono fun rule hrule => (extended rule).2 (.inr hrule)
        · rw [List.mem_singleton.1 mem]
          exact ParseTree.builtBy_leaf last
    · rw [ParseTree.yield_closed, parse.yield, sentence]

/-- The same of tables that have been built, and of a stream that ends with the end-marker. -/
theorem isParse_iff_of_build {rules others : List (Rule S)} {table table' : DecisionTable S}
    (built : DecisionTable.build rules = .ok table) (unmarked : Unmarked rules)
    (closes : Closes closing rules table.start marker)
    (built' : DecisionTable.build others = .ok table') (start' : table'.start = closing.lhs)
    (extended : others.Perm (closing :: rules)) {stream : TokenStream S} {tokens : List (Lexeme S)}
    (lexemes : stream.lexemes = tokens ++ [last]) (kind : last.kind = marker)
    (typed' : Typed ⟨table', stream⟩) (tree' : ParseTree S) :
    IsParse ⟨table', stream⟩ tree' ↔
      ∃ tree, IsParse ⟨table, stream⟩ tree ∧ ParseTree.closed closing.lhs last tree = tree' := by
  have known (rule : Rule S) : rule ∈ table.rules.toList ↔ rule ∈ rules :=
    DecisionTable.mem_rules_of_build built
  have known' (rule : Rule S) :
      rule ∈ table'.rules.toList ↔ rule = closing ∨ rule ∈ table.rules.toList := by
    rw [DecisionTable.mem_rules_of_build built', extended.mem_iff, List.mem_cons, known]
  -- One grammar has to read the end-marker, the other one leaves it.
  have explicit : table'.acceptsExplicitly = true :=
    DecisionTable.acceptsExplicitly_iff.2
      ⟨closing, (known' closing).2 (.inl rfl), closes.isTerminating⟩
  have implicit : (⟨table, stream⟩ : Problem S).table.acceptsExplicitly = false :=
    acceptsExplicitly_of_unmarked fun rule hrule => unmarked rule ((known rule).1 hrule)
  have sentence : sentence ⟨table, stream⟩ = tokens :=
    sentence_of_marker implicit lexemes (by rw [kind]; exact closes.ends)
  refine isParse_closed_iff (closes.mono fun rule => (known rule).1) known' start' typed' explicit ?_ kind
  rw [sentence]
  exact lexemes

/-- In a customary grammar the search finds the parse trees, and its verdict decides. -/
theorem exists_results_of_customary (problem : Problem S)
    (customary : Customary problem.table.rules.toList problem.table.start) (typed : problem.Typed)
    (options : SearchOptions) (unbounded : options.maxSteps = none) :
    ∃ results final, Search.Collects problem.machine options .initial results final ∧
      (∀ tree, ⟨[tree], none⟩ ∈ results ↔ problem.IsParse tree) ∧
      (Verdict.ofResults results).Decides problem.IsParse := by
  obtain ⟨results, final, enough, collected, found, sound⟩ :=
    exists_collect_of_customary customary typed options unbounded
  have parses : ∀ result ∈ Search.reported options [] results, result.error = none →
      ∃ tree, result.forest = [tree] ∧ problem.IsParse tree :=
    fun result mem => sound result (Search.mem_of_mem_reported mem)
  have members : ∀ tree,
      ⟨[tree], none⟩ ∈ Search.reported options [] results ↔ problem.IsParse tree := by
    intro tree
    constructor
    · intro mem
      obtain ⟨other, forest, parse⟩ := parses _ mem rfl
      rw [List.singleton_inj.1 forest]
      exact parse
    · intro parse
      rcases Search.exists_mem_reported [] (found tree parse) rfl with
        none | ⟨other, mem, accepted, forest⟩
      · exact absurd none List.not_mem_nil
      · have same := ParseResult.eq_of_isAccepted (Option.isNone_iff_eq_none.2 accepted) forest
        exact same ▸ mem
  refine ⟨_, final, ⟨enough, collected enough (Nat.le_refl _)⟩, members, ?_⟩
  refine Verdict.decides_ofResults fun tree => ?_
  rw [Verdict.mem_treesOf]
  constructor
  · intro h
    obtain ⟨result, mem, accepted, head⟩ := h
    obtain ⟨other, forest, parse⟩ := parses result mem accepted
    rw [forest, List.head?_cons, Option.some.injEq] at head
    exact head ▸ parse
  · intro parse
    exact ⟨_, (members tree).2 parse, rfl, rfl⟩

end Problem

/-! ## §3. Verdicts that match. -/

namespace Verdict

omit [DecidableEq S]

/-- The verdicts are of one kind, and the trees of the second one are those of the
first one, each changed by `wrap`; several trees are compared as sets. -/
inductive Matches (wrap : ParseTree S → ParseTree S) : Verdict S → Verdict S → Prop where
  | rejected (errors others : List (ParseError S)) : Matches wrap (.rejected errors) (.rejected others)
  | accepted (tree : ParseTree S) : Matches wrap (.accepted tree) (.accepted (wrap tree))
  | ambiguous {trees others : List (ParseTree S)}
      (same : ∀ other, other ∈ others ↔ ∃ tree ∈ trees, wrap tree = other) :
      Matches wrap (.ambiguous trees) (.ambiguous others)

/-- Verdicts match if the trees they decide on correspond to each other. -/
theorem Decides.matches {wrap : ParseTree S → ParseTree S} (injective : Function.Injective wrap)
    {verdict verdict' : Verdict S} {found found' : ParseTree S → Prop} (h : verdict.Decides found)
    (h' : verdict'.Decides found')
    (same : ∀ other, found' other ↔ ∃ tree, found tree ∧ wrap tree = other) :
    verdict.Matches wrap verdict' := by
  -- What one verdict says about the trees decides what the other one can be.
  cases verdict with
  | rejected errors =>
    have none := h.rejected.1 ⟨errors, rfl⟩
    obtain ⟨others, rfl⟩ := h'.rejected.2 fun other hother => by
      obtain ⟨tree, htree, _⟩ := (same other).1 hother
      exact none tree htree
    exact .rejected errors others
  | accepted tree =>
    have only := (h.accepted tree).1 rfl
    obtain rfl := (h'.accepted (wrap tree)).2 fun other => by
      simp only [same, only, exists_eq_left]
      exact eq_comm
    exact .accepted tree
  | ambiguous trees =>
    obtain ⟨first, second, different, hfirst, hsecond⟩ := h.ambiguous.1 ⟨trees, rfl⟩
    obtain ⟨others, rfl⟩ := h'.ambiguous.2 ⟨wrap first, wrap second, injective.ne different,
      (same _).2 ⟨first, hfirst, rfl⟩, (same _).2 ⟨second, hsecond, rfl⟩⟩
    refine .ambiguous fun other => ?_
    simp only [(h'.listed others rfl).2, same, (h.listed trees rfl).2]

end Verdict

/-! ## §4. Searches. -/

/-- A grammar without end-markers and the same grammar with a closing rule find
the same trees in a stream that ends with the end-marker, but for a new root
over each tree and the end-marker; and their verdicts match. -/
theorem closed_search_agrees {rules others : List (Rule S)} {table : DecisionTable S}
    (built : DecisionTable.build rules = .ok table)
    (lhs : ∀ rule ∈ rules, GrammarSymbol.isTerminal rule.lhs = false) (unmarked : Unmarked rules)
    (acyclic : Acyclic rules) {closing : Rule S} {marker : S}
    (closes : Closes closing rules table.start marker) (extended : others.Perm (closing :: rules))
    {stream : TokenStream S} {tokens : List (Lexeme S)} {last : Lexeme S}
    (lexemes : stream.lexemes = tokens ++ [last]) (kind : last.kind = marker)
    (terminals : ∀ token ∈ tokens, GrammarSymbol.isTerminal token.kind = true) (deduplicate : Bool) :
    ∃ table', DecisionTable.build others = .ok table' ∧
      ∃ results results' final final',
        Search.Collects (Problem.machine ⟨table, stream⟩) { deduplicate } .initial results final ∧
        Search.Collects (Problem.machine ⟨table', stream⟩) { deduplicate } .initial results' final' ∧
        (∀ tree', ⟨[tree'], none⟩ ∈ results' ↔
          ∃ tree, ⟨[tree], none⟩ ∈ results ∧ ParseTree.closed closing.lhs last tree = tree') ∧
        (Verdict.ofResults results).Matches (ParseTree.closed closing.lhs last)
          (Verdict.ofResults results') := by
  obtain ⟨table', built', start'⟩ := closes.exists_build extended ⟨table, built⟩
  have customary : Customary table.rules.toList table.start :=
    customary_of_build built ⟨lhs, acyclic, .inr unmarked⟩
  have customary' : Customary table'.rules.toList table'.start := by
    refine customary_of_build built' (.mono extended.subset ?_)
    rw [start']
    exact closes.customary lhs unmarked acyclic (DecisionTable.exists_start_of_build built)
  have token : ∀ lexeme ∈ stream.lexemes, GrammarSymbol.isTerminal lexeme.kind = true := by
    intro lexeme mem
    rw [lexemes] at mem
    rcases List.mem_append.1 mem with mem | mem
    · exact terminals lexeme mem
    · rw [List.mem_singleton.1 mem, kind]
      exact closes.terminal
  have parses := Problem.isParse_iff_of_build built unmarked closes built' start' extended lexemes kind
    ⟨customary'.lhs, token⟩
  obtain ⟨results, final, collected, members, decides⟩ :=
    Problem.exists_results_of_customary ⟨table, stream⟩ customary ⟨customary.lhs, token⟩
      { deduplicate } rfl
  obtain ⟨results', final', collected', members', decides'⟩ :=
    Problem.exists_results_of_customary ⟨table', stream⟩ customary' ⟨customary'.lhs, token⟩
      { deduplicate } rfl
  refine ⟨table', built', results, results', final, final', collected, collected', ?_,
    decides.matches ParseTree.closed_injective decides' parses⟩
  intro tree'
  simp only [members', members, parses]

/-- The rules `E => E E` and `E => a`, which `S => E <eos>` closes. -/
def openTable : DecisionTable Symbol :=
  .ofRuleSet ⟨joinRules.tail, by decide, by decide, by decide⟩

/-- Without the closing rule one tree is found in `a a <eos>`, and with it the same
tree under a root for `S`. -/
theorem closed_search_agrees_join :
    ∃ results results' final final' tree,
      Search.Collects (Problem.machine ⟨openTable, joinStream⟩) {} .initial results final ∧
      Search.Collects (Problem.machine ⟨joinTable, joinStream⟩) {} .initial results' final' ∧
      Verdict.ofResults results = .accepted tree ∧
      Verdict.ofResults results' =
        .accepted (ParseTree.closed (.nonTerminal "S") ⟨.endMarker, "<eos>", 2⟩ tree) := by
  have unmarked : Unmarked joinRules.tail := by
    unfold Unmarked
    decide
  have acyclic : Acyclic joinRules.tail :=
    customary_joinRules.acyclic.mono (List.tail_sublist joinRules).subset
  have closes : Closes ⟨0, .nonTerminal "S", [.nonTerminal "E", .endMarker]⟩ joinRules.tail
      openTable.start .endMarker := ⟨by decide, by decide, by decide, rfl, by decide, by decide⟩
  have lexemes : joinStream.lexemes =
      [⟨.terminal "a", "a", 0⟩, ⟨.terminal "a", "a", 1⟩] ++ [⟨.endMarker, "<eos>", 2⟩] := by
    decide
  obtain ⟨table', built', results, results', final, final', collected, collected', _, matched⟩ :=
    closed_search_agrees openTable.build_rules (by decide) unmarked acyclic closes (List.Perm.refl _) lexemes rfl
      (by decide) false
  cases build_joinRules.symm.trans built'
  have one : ((Search.collect? (Problem.machine ⟨openTable, joinStream⟩) {} 20 .initial).map
      fun collected => (Verdict.ofResults collected.1).isAccepted) = some true := by
    decide +kernel
  obtain ⟨⟨found, last⟩, evaluated, accepted⟩ := Option.map_eq_some_iff.1 one
  obtain ⟨rfl, rfl⟩ := collected.unique ⟨20, evaluated⟩
  generalize verdict : Verdict.ofResults results = first at matched accepted
  generalize verdict' : Verdict.ofResults results' = second at matched
  cases matched with
  | rejected => cases accepted
  | accepted tree => exact ⟨_, _, _, _, tree, collected, collected', verdict, verdict'⟩
  | ambiguous => cases accepted

end ShiftReduce
