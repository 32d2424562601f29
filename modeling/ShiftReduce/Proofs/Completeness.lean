/-
  ShiftReduce.Proofs.Completeness
  ────────────────────────────────
  **THE SEARCH FINDS THE PARSE TREES, ALL OF THEM AND NOTHING ELSE.**

  This holds of grammars that put their end-markers in one of two customary
  ways: at the end of the rules of a start symbol that no rule mentions, or
  nowhere.  Left-hand sides are no terminals, tokens are, and no chain of
  one-symbol rules leads from a symbol back to itself.

  Main statements: `isParse_iff_accepted`, `parse_tree_found` (the search is
  finite and finds every parse tree) and `verdict_decides`.
-/
import ShiftReduce.Proofs.Branch.Completeness
import ShiftReduce.Proofs.Branch.Termination
import ShiftReduce.Proofs.Search.Verdict
import ShiftReduce.Proofs.Soundness

namespace ShiftReduce

open Relation

variable {S : Type} [GrammarSymbol S]

/-! ## §1. Customary grammars. -/

/-- The rules that end with an end-marker are those of the start symbol, which
stands on no right-hand side. -/
structure EndsMarked (rules : List (Rule S)) (start : S) : Prop where
  ends : ∀ rule ∈ rules, rule.isTerminating = true ↔ rule.lhs = start
  fresh : ∀ rule ∈ rules, start ∉ rule.rhs

/-- There is no end-marker on the right-hand sides. -/
def Unmarked (rules : List (Rule S)) : Prop :=
  ∀ rule ∈ rules, ∀ symbol ∈ rule.rhs, GrammarSymbol.isEndMarker symbol = false

/-- Left-hand sides are no terminals, one-symbol rules make no cycle, and
end-markers are put in one of the two customary ways. -/
structure Customary (rules : List (Rule S)) (start : S) : Prop where
  lhs : ∀ rule ∈ rules, GrammarSymbol.isTerminal rule.lhs = false
  acyclic : Acyclic rules
  placed : EndsMarked rules start ∨ Unmarked rules

theorem Unmarked.not_isTerminating {rules : List (Rule S)} (unmarked : Unmarked rules)
    {rule : Rule S} (hrule : rule ∈ rules) : rule.isTerminating = false := by
  refine Bool.eq_false_iff.2 fun terminating => ?_
  obtain ⟨symbol, hlast, marker⟩ := (Option.any_eq_true _ _).1 terminating
  rw [unmarked rule hrule symbol (List.mem_of_getLast? hlast)] at marker
  cases marker

theorem Customary.mono {rules others : List (Rule S)} {start : S} (h : rules ⊆ others)
    (customary : Customary others start) : Customary rules start where
  lhs := fun rule hrule => customary.lhs rule (h hrule)
  acyclic := customary.acyclic.mono h
  placed := by
    rcases customary.placed with marked | unmarked
    · exact .inl ⟨fun rule hrule => marked.ends rule (h hrule),
        fun rule hrule => marked.fresh rule (h hrule)⟩
    · exact .inr fun rule hrule => unmarked rule (h hrule)

variable [DecidableEq S]

/-! ## §2. Parse trees. -/

namespace Problem

/-- What a parse tree has as its leaves: the tokens of the stream, without a
final end-marker if the rules have none. -/
def sentence (problem : Problem S) : List (Lexeme S) :=
  if problem.table.acceptsExplicitly then problem.stream.lexemes
  else if problem.stream.lexemes.getLast?.any fun last => GrammarSymbol.isEndMarker last.kind then
    problem.stream.lexemes.dropLast
  else problem.stream.lexemes

/-- The tree is of the start symbol, the rules build it, and its leaves are the
sentence of the stream. -/
structure IsParse (problem : Problem S) (tree : ParseTree S) : Prop where
  kind : tree.kind = problem.table.start
  built : tree.BuiltBy problem.table.rules.toList
  yield : tree.yield = problem.sentence

variable {problem : Problem S} {tree : ParseTree S}

theorem sentence_of_explicit (explicit : problem.table.acceptsExplicitly = true) :
    problem.sentence = problem.stream.lexemes := by
  rw [sentence, if_pos explicit]

theorem sentence_of_marker (implicit : problem.table.acceptsExplicitly = false)
    {tokens : List (Lexeme S)} {last : Lexeme S} (hlexemes : problem.stream.lexemes = tokens ++ [last])
    (marker : GrammarSymbol.isEndMarker last.kind = true) : problem.sentence = tokens := by
  have ends : problem.stream.lexemes.getLast?.any
      (fun last => GrammarSymbol.isEndMarker last.kind) = true := by
    rw [hlexemes, List.getLast?_concat]
    exact marker
  rw [sentence, if_neg (by simp [implicit]), if_pos ends, hlexemes, List.dropLast_concat]

theorem sentence_of_unmarked
    (unmarked : ∀ last, problem.stream.lexemes.getLast? = some last →
      GrammarSymbol.isEndMarker last.kind = false) :
    problem.sentence = problem.stream.lexemes := by
  have ends : ¬problem.stream.lexemes.getLast?.any
      (fun last => GrammarSymbol.isEndMarker last.kind) = true := by
    intro marked
    obtain ⟨last, hlast, marker⟩ := (Option.any_eq_true _ _).1 marked
    rw [unmarked last hlast] at marker
    cases marker
  rw [sentence, if_neg ends]
  split
  · rfl
  · rfl

/-- Without end-markers in the rules, at most one end-marker comes after the sentence. -/
theorem settledAt_sentence (implicit : problem.table.acceptsExplicitly = false) :
    problem.SettledAt problem.sentence.length ∧
      problem.sentence = problem.stream.lexemes.take problem.sentence.length := by
  by_cases marked : ∃ tokens last, problem.stream.lexemes = tokens ++ [last] ∧
      GrammarSymbol.isEndMarker last.kind = true
  · obtain ⟨tokens, last, hlexemes, marker⟩ := marked
    rw [sentence_of_marker implicit hlexemes marker, SettledAt, hlexemes]
    exact ⟨.inr ⟨last, List.drop_left, marker⟩, List.take_left.symm⟩
  · have same : problem.sentence = problem.stream.lexemes := by
      refine sentence_of_unmarked fun last hlast => Bool.eq_false_iff.2 fun marker => marked ?_
      -- An end-marker at the end would split the stream as excluded.
      exact ⟨_, last, (List.dropLast_append_getLast? last hlast).symm, marker⟩
    rw [same, SettledAt]
    exact ⟨.inl List.drop_length, List.take_length.symm⟩

/-- Tokens that are no end-markers, and after which at most an end-marker comes,
are the sentence. -/
theorem eq_sentence (implicit : problem.table.acceptsExplicitly = false) {cursor : Nat}
    (settled : problem.SettledAt cursor)
    (unmarked : ∀ leaf ∈ problem.stream.lexemes.take cursor,
      GrammarSymbol.isEndMarker leaf.kind = false) :
    problem.stream.lexemes.take cursor = problem.sentence := by
  have whole := List.take_append_drop cursor problem.stream.lexemes
  rcases settled with none | ⟨marker, one, marks⟩
  · rw [none, List.append_nil] at whole
    rw [whole] at unmarked ⊢
    exact (sentence_of_unmarked fun last hlast => unmarked last (List.mem_of_getLast? hlast)).symm
  · rw [one] at whole
    exact (sentence_of_marker implicit whole.symm marks).symm

/-! ## §3. Parse trees are the trees to accept. -/

/-- Below the root no rule of a customary grammar ends with an end-marker. -/
theorem builtBy_inner (marked : EndsMarked problem.table.rules.toList problem.table.start)
    (built : tree.BuiltBy problem.table.rules.toList) (other : tree.kind ≠ problem.table.start) :
    tree.BuiltBy problem.table.rules.inner := by
  refine built.without (fun rule hrule => ?_) (fun rule hinner => ?_) other
  · -- Only rules of the start symbol end with an end-marker.
    cases hterminating : rule.isTerminating with
    | true => exact .inl ((marked.ends rule hrule).1 hterminating)
    | false => exact .inr (List.mem_filter.2 ⟨hrule, by rw [hterminating]; rfl⟩)
  · exact marked.fresh rule (problem.table.rules.inner_subset hinner)

/-- No leaf under the start symbol is an end-marker if the rules have none. -/
theorem unmarked_yield (typed : problem.Typed) (unmarked : Unmarked problem.table.rules.toList)
    (kind : tree.kind = problem.table.start) (built : tree.BuiltBy problem.table.rules.toList)
    (leaves : ∀ leaf ∈ tree.yield, leaf ∈ problem.stream.lexemes) :
    ∀ leaf ∈ tree.yield, GrammarSymbol.isEndMarker leaf.kind = false := by
  intro leaf mem
  rcases built.leaf mem with rfl | ⟨rule, hrule, hrhs⟩
  · exact absurd rfl (typed.children_ne_nil kind leaves)
  · exact unmarked rule hrule leaf.kind hrhs

theorem acceptsExplicitly_of_endsMarked
    (marked : EndsMarked problem.table.rules.toList problem.table.start) :
    problem.table.acceptsExplicitly = true := by
  obtain ⟨rule, hrule, hlhs⟩ := problem.table.exists_rule_of_start
  exact DecisionTable.acceptsExplicitly_iff.2 ⟨rule, hrule, (marked.ends rule hrule).2 hlhs⟩

theorem acceptsExplicitly_of_unmarked (unmarked : Unmarked problem.table.rules.toList) :
    problem.table.acceptsExplicitly = false := by
  refine Bool.eq_false_iff.2 fun explicit => ?_
  obtain ⟨rule, hrule, terminating⟩ := DecisionTable.acceptsExplicitly_iff.1 explicit
  rw [unmarked.not_isTerminating hrule] at terminating
  cases terminating

/-- With end-markers in the rules of the start symbol only, the parse trees are
the trees that an accepting item can end with. -/
theorem isParse_iff_acceptedByRule (typed : problem.Typed)
    (marked : EndsMarked problem.table.rules.toList problem.table.start) :
    problem.IsParse tree ↔ problem.AcceptedByRule tree := by
  have explicit := acceptsExplicitly_of_endsMarked marked
  constructor
  · intro h
    have yield := h.yield.trans (sentence_of_explicit explicit)
    have inner := typed.children_ne_nil h.kind fun leaf mem => yield ▸ mem
    obtain ⟨rule, hrule, root, kinds⟩ := h.built.root inner
    have start : rule.lhs = problem.table.start := by
      rw [← h.kind, root]
      rfl
    refine ⟨⟨rule, hrule, (marked.ends rule hrule).2 start, ⟨root, kinds⟩, ?_⟩, ?_, yield⟩
    · exact DecisionTable.canFollow_none_iff.2 (by rw [start])
    · intro child mem
      refine builtBy_inner marked (h.built.child mem) fun same => marked.fresh rule hrule ?_
      rw [← kinds, ← same]
      exact List.mem_map.2 ⟨child, mem, rfl⟩
  · intro h
    obtain ⟨rule, hrule, terminating, ⟨root, _⟩, _⟩ := h.root
    refine ⟨?_, Accepted.builtBy (.inl h), h.yield.trans (sentence_of_explicit explicit).symm⟩
    rw [root]
    exact (marked.ends rule hrule).1 terminating

/-- Without end-markers in the rules, the parse trees are the trees of the
start symbol that branches can be accepted with. -/
theorem isParse_iff_acceptedAsStart (typed : problem.Typed)
    (unmarked : Unmarked problem.table.rules.toList) :
    problem.IsParse tree ↔ problem.AcceptedAsStart tree := by
  have implicit := acceptsExplicitly_of_unmarked unmarked
  constructor
  · intro h
    obtain ⟨settled, sentence⟩ := settledAt_sentence implicit
    refine ⟨implicit, h.kind, h.built.mono fun rule hrule => ?_, _, settled, h.yield.trans sentence⟩
    refine List.mem_filter.2 ⟨hrule, ?_⟩
    rw [unmarked.not_isTerminating hrule]
    rfl
  · intro h
    obtain ⟨cursor, settled, yield⟩ := h.yield
    have built := Accepted.builtBy (.inr h)
    have leaves : ∀ leaf ∈ tree.yield, leaf ∈ problem.stream.lexemes := by
      rw [yield]
      exact fun _ => List.mem_of_mem_take
    have markers := unmarked_yield typed unmarked h.kind built leaves
    rw [yield] at markers
    exact ⟨h.kind, built, yield.trans (eq_sentence implicit settled markers)⟩

/-- In a customary grammar the parse trees are the trees that branches can be
accepted with. -/
theorem isParse_iff_accepted (customary : Customary problem.table.rules.toList problem.table.start)
    (typed : problem.Typed) : problem.IsParse tree ↔ problem.Accepted tree := by
  rcases customary.placed with marked | unmarked
  · rw [isParse_iff_acceptedByRule typed marked]
    exact ⟨.inl, fun h => h.byRule (acceptsExplicitly_of_endsMarked marked)⟩
  · rw [isParse_iff_acceptedAsStart typed unmarked]
    exact ⟨.inr, fun h => h.asStart (acceptsExplicitly_of_unmarked unmarked)⟩

/-- Every parse tree is the result of some branch. -/
theorem endsIn_of_isParse (customary : Customary problem.table.rules.toList problem.table.start)
    (typed : problem.Typed) (h : problem.IsParse tree) {maxSteps : Option Nat}
    (within : ∀ bound, maxSteps = some bound → tree.size - 1 ≤ bound) :
    problem.machine.EndsIn maxSteps ⟨[tree], none⟩ := by
  rcases customary.placed with marked | unmarked
  · exact endsIn_of_acceptedByRule typed ((isParse_iff_acceptedByRule typed marked).1 h) within
  · have accepted := (isParse_iff_acceptedAsStart typed unmarked).1 h
    refine endsIn_of_acceptedAsStart typed customary.acyclic accepted ?_ within
    refine unmarked_yield typed unmarked h.kind h.built ?_
    obtain ⟨cursor, _, yield⟩ := accepted.yield
    rw [yield]
    exact fun _ => List.mem_of_mem_take

/-- A finite search hands out a result without a failure for each parse tree,
and for no other tree. -/
theorem exists_collect_of_customary
    (customary : Customary problem.table.rules.toList problem.table.start) (typed : problem.Typed)
    (options : SearchOptions) (unbounded : options.maxSteps = none) :
    ∃ results final enough,
      (∀ fuel, enough ≤ fuel → Search.collect? problem.machine options fuel .initial =
        some (Search.reported options [] results, final)) ∧
      (∀ tree, problem.IsParse tree → ⟨[tree], none⟩ ∈ results) ∧
      ∀ result ∈ results, result.error = none →
        ∃ tree, result.forest = [tree] ∧ problem.IsParse tree := by
  obtain ⟨results, final, enough, collected, _, members⟩ := Search.exists_collect
    (machine_lawful problem) options
    (exists_enumerate_of_acyclic problem customary.acyclic options.maxSteps)
  refine ⟨results, final, enough, collected, ?_, ?_⟩
  · intro tree parse
    refine (members _).2 (endsIn_of_isParse customary typed parse fun bound h => ?_)
    rw [unbounded] at h
    cases h
  · intro result mem accepted
    obtain ⟨tree, forest, htree⟩ := accepted_of_endsIn ((members result).1 mem) accepted
    exact ⟨tree, forest, (isParse_iff_accepted customary typed).2 htree⟩

end Problem

/-! ## §4. An ambiguous grammar. -/

/-- The rules `S => E <eos>`, `E => E E` and `E => a`. -/
def joinRules : List (Rule Symbol) :=
  [⟨0, .nonTerminal "S", [.nonTerminal "E", .endMarker]⟩,
    ⟨1, .nonTerminal "E", [.nonTerminal "E", .nonTerminal "E"]⟩,
    ⟨2, .nonTerminal "E", [.terminal "a"]⟩]

/-- The table of these rules. -/
def joinTable : DecisionTable Symbol :=
  .ofRuleSet ⟨joinRules, by decide, by decide, by decide⟩

theorem build_joinRules : DecisionTable.build joinRules = .ok joinTable :=
  joinTable.build_rules

theorem customary_joinRules : Customary joinRules joinTable.start where
  lhs := by decide
  acyclic := by
    intro symbol cycle
    -- The only link leads from `E` to `a`, from which none goes on.
    have link : ∀ symbol other, Link joinRules symbol other →
        symbol = .nonTerminal "E" ∧ other = .terminal "a" := by
      intro symbol other h
      obtain ⟨rule, hrule, rfl, hrhs⟩ := h
      simp only [joinRules, List.mem_cons, List.not_mem_nil, or_false] at hrule
      rcases hrule with rfl | rfl | rfl
      · cases hrhs
      · cases hrhs
      · cases hrhs
        exact ⟨rfl, rfl⟩
    obtain ⟨_, first, _⟩ := TransGen.head'_iff.1 cycle
    obtain ⟨_, _, last⟩ := TransGen.tail'_iff.1 cycle
    have same := (link _ _ first).1.symm.trans (link _ _ last).2
    cases same
  placed := .inl ⟨by decide, by decide⟩

/-- The tokens `a a <eos>`. -/
def joinStream : TokenStream Symbol :=
  .ofKinds [.terminal "a", .terminal "a", .endMarker]

/-- The parse tree of these tokens. -/
def joinTree : ParseTree Symbol :=
  let leaf (index : Nat) : ParseTree Symbol := .node ⟨.terminal "a", "a", index⟩ []
  let each (index : Nat) := ParseTree.ofChildren (.nonTerminal "E") [leaf index]
  ParseTree.ofChildren (.nonTerminal "S")
    [ParseTree.ofChildren (.nonTerminal "E") [each 0, each 1], .node ⟨.endMarker, "<eos>", 2⟩ []]

theorem isParse_joinTree : Problem.IsParse ⟨joinTable, joinStream⟩ joinTree where
  kind := by decide
  built := by decide +kernel
  yield := by decide +kernel

/-! ## §5. Searches in customary grammars. -/

variable {rules : List (Rule S)} {table : DecisionTable S}

theorem customary_of_build (built : DecisionTable.build rules = .ok table)
    (customary : Customary rules table.start) : Customary table.rules.toList table.start :=
  customary.mono fun _ => (DecisionTable.mem_rules_of_build built).1

/-- The search is finite and hands out a result for every parse tree. -/
theorem parse_tree_found (built : DecisionTable.build rules = .ok table)
    (customary : Customary rules table.start) {stream : TokenStream S}
    (tokens : ∀ lexeme ∈ stream.lexemes, GrammarSymbol.isTerminal lexeme.kind = true)
    {tree : ParseTree S} (parse : Problem.IsParse ⟨table, stream⟩ tree) :
    ∃ results final enough,
      (∀ fuel, enough ≤ fuel →
        Search.collect? (Problem.machine ⟨table, stream⟩) {} fuel .initial = some (results, final)) ∧
      ⟨[tree], none⟩ ∈ results := by
  have customary' := customary_of_build built customary
  have typed : Problem.Typed ⟨table, stream⟩ := ⟨customary'.lhs, tokens⟩
  obtain ⟨results, final, enough, collected, found, _⟩ :=
    Problem.exists_collect_of_customary customary' typed {} rfl
  refine ⟨results, final, enough, ?_, found tree parse⟩
  rw [Search.reported_eq_self rfl] at collected
  exact collected

/-- The parse tree of `a a <eos>` is found. -/
theorem parse_tree_found_join :
    ∃ results final enough,
      (∀ fuel, enough ≤ fuel →
        Search.collect? (Problem.machine ⟨joinTable, joinStream⟩) {} fuel .initial =
          some (results, final)) ∧
      ⟨[joinTree], none⟩ ∈ results :=
  parse_tree_found build_joinRules customary_joinRules (by decide) isParse_joinTree

/-- The verdict decides whether the stream has a parse tree, and whether it has
several, and lists the parse trees. -/
theorem verdict_decides (built : DecisionTable.build rules = .ok table)
    (customary : Customary rules table.start) {stream : TokenStream S}
    (tokens : ∀ lexeme ∈ stream.lexemes, GrammarSymbol.isTerminal lexeme.kind = true)
    (deduplicate : Bool) :
    ∃ (verdict : Verdict S) (enough : Nat),
      (∀ fuel, enough ≤ fuel →
        Search.verdict? (Problem.machine ⟨table, stream⟩) { deduplicate } fuel .initial =
          some verdict) ∧
      verdict.Decides (Problem.IsParse ⟨table, stream⟩) := by
  have customary' := customary_of_build built customary
  have typed : Problem.Typed ⟨table, stream⟩ := ⟨customary'.lhs, tokens⟩
  obtain ⟨results, final, enough, collected, found, sound⟩ :=
    Problem.exists_collect_of_customary customary' typed { deduplicate } rfl
  refine ⟨Verdict.ofResults (Search.reported { deduplicate } [] results), enough, ?_, ?_⟩
  · intro fuel more
    rw [Search.verdict?, collected fuel more]
    rfl
  · refine Verdict.decides_ofResults fun tree => ?_
    rw [Search.treesOf_reported, Verdict.mem_treesOf]
    constructor
    · intro h
      obtain ⟨result, mem, accepted, head⟩ := h
      obtain ⟨other, forest, parse⟩ := sound result mem accepted
      rw [forest, List.head?_cons, Option.some.injEq] at head
      exact head ▸ parse
    · intro parse
      exact ⟨_, found tree parse, rfl, rfl⟩

/-- The verdict on `a a <eos>` decides. -/
theorem verdict_decides_join :
    ∃ (verdict : Verdict Symbol) (enough : Nat),
      (∀ fuel, enough ≤ fuel →
        Search.verdict? (Problem.machine ⟨joinTable, joinStream⟩) { deduplicate := true } fuel
          .initial = some verdict) ∧
      verdict.Decides (Problem.IsParse ⟨joinTable, joinStream⟩) :=
  verdict_decides build_joinRules customary_joinRules (by decide) true

end ShiftReduce
