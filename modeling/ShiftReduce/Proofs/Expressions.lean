/-
  ShiftReduce.Proofs.Expressions
  ────────────────────────────────
  **SUMS ARE RECOGNISED IN LINEARLY MANY BRANCHES.**

  The search builds an expression from its tokens upwards, and has to guess only
  once for each plus: with `Expr + Term` on the stack, the term may be an
  expression of its own or the last one of the sum.  The wrong guess would put an
  expression right above a plus, where none may sit, and fails at its first move.

  Main statements: `clears_of_reads` (how an expression or a term is taken from the
  tokens, by induction on what it is) and `expressions_recognised`.
-/
import ShiftReduce.Proofs.Branch.Configurations
import ShiftReduce.Proofs.Expressions.Language

namespace ShiftReduce

open ExprSymbol

/-! ## §1. The moves that there are. -/

theorem items_term : expressionTable.items term =
    [expressionTable.rules.itemAt sumRule 2, expressionTable.rules.itemAt singleRule 0] := by
  decide

/-- The token after an expression decides how it goes on. -/
theorem length_items_expr_le : ∀ next ∈ [eof, plus, closing],
    ((expressionTable.items expr).filter fun item => item.admits (some next)).length ≤ 1 := by
  decide

/-- Every token stands in one place of the rules only. -/
theorem length_items_le : ∀ token ∈ [eof, plus, num, opening, closing],
    (expressionTable.items token).length ≤ 1 := by
  decide

/-- No expression sits above a plus. -/
theorem canFollow_plus : expressionTable.canFollow (some plus) expr = false := by
  decide

namespace Problem

variable {stream : TokenStream ExprSymbol} {below rest : List ExprSymbol} {branch : Branch ExprSymbol}

/-- The items of a term: it may be an expression, or the last one of a sum, if the stack
shows the sum. -/
theorem matches_term {item : Item ExprSymbol}
    (displays : Displays ⟨expressionTable, stream⟩ branch (term :: below) rest)
    (matched : Matches ⟨expressionTable, stream⟩ branch item) :
    item = expressionTable.rules.itemAt singleRule 0 ∨
      item = expressionTable.rules.itemAt sumRule 2 ∧ [plus, expr] <+: below := by
  have mem : item ∈ expressionTable.items term := (List.mem_filter.1 (displays.admits matched)).1
  rw [items_term, List.mem_cons, List.mem_singleton] at mem
  rcases mem with rfl | rfl
  · have fits := matched.fits
    rw [displays.kinds_eq] at fits
    exact .inr ⟨rfl, (List.prefix_cons_inj term).1 fits⟩
  · exact .inl rfl

/-- A term that is not above a plus becomes an expression. -/
theorem clears_single {forks : Nat} (follows : expressionTable.canFollow below.head? expr = true)
    (clears : Clears ⟨expressionTable, stream⟩ (expr :: below) rest forks) :
    Clears ⟨expressionTable, stream⟩ (term :: below) rest forks := by
  refine Clears.reduce singleRule clears rfl (of_decide_eq_true rfl) rfl follows ?_
  intro branch displays
  have one : [expressionTable.rules.itemAt singleRule 0].length ≤ 1 := Nat.le_refl 1
  refine (length_verifiedItems_le fun item matched => ?_).trans one
  -- Above a plus no expression could sit, so the item of a sum does not match.
  rcases matches_term displays matched with rfl | ⟨rfl, sum⟩
  · exact List.mem_singleton.2 rfl
  · obtain ⟨deeper, rfl⟩ := sum
    exact absurd (follows.symm.trans canFollow_plus) (by decide)

/-- A term at the end of a sum forks, and one of the two ways is a dead end. -/
theorem clears_sum {forks : Nat} (follows : expressionTable.canFollow below.head? expr = true)
    (clears : Clears ⟨expressionTable, stream⟩ (expr :: below) rest forks) :
    Clears ⟨expressionTable, stream⟩ (term :: plus :: expr :: below) rest (forks + 1) := by
  have single : term :: plus :: expr :: below = singleRule.rhs.reverse ++ plus :: expr :: below := rfl
  have sum : term :: plus :: expr :: below = sumRule.rhs.reverse ++ below := rfl
  refine Clears.fork clears single sum rfl (of_decide_eq_true rfl) (of_decide_eq_true rfl) rfl rfl rfl rfl
    (by decide) canFollow_plus follows ?_
  intro branch displays item matched
  exact (matches_term displays matched).imp_right And.left

/-! ## §2. Expressions and terms. -/

/-- What is shown on the stack below the input is cleared, once its first token has been
shifted. -/
def Takes (problem : Problem ExprSymbol) (below input : List ExprSymbol) (forks : Nat) : Prop :=
  ∀ first later, input = first :: later → problem.Clears (first :: below) later forks

variable {forks : Nat}

/-- The first token of a word is shifted where a rule goes on with what the word is. -/
theorem Takes.clears {word later : List ExprSymbol} {top symbol : ExprSymbol}
    (takes : Takes ⟨expressionTable, stream⟩ (top :: below) (word ++ rest) forks) (reads : Reads symbol word)
    (rule : Rule ExprSymbol) (shown : List ExprSymbol) (rhs : rule.rhs = shown ++ top :: symbol :: later)
    (hrule : rule ∈ expressionRules) (fits : shown.reverse <+: below)
    (token : top ∈ [eof, plus, num, opening, closing]) :
    Clears ⟨expressionTable, stream⟩ (top :: below) (word ++ rest) forks := by
  obtain ⟨first, others, rfl, opens⟩ := reads.exists_cons
  exact (takes first _ rfl).shift rule shown rhs hrule fits opens (forced_of_items (length_items_le top token))

/-- Before an expression or a term there is what is cleared after it, with one fork more for
each plus in it. -/
theorem clears_of_reads {symbol : ExprSymbol} {word : List ExprSymbol} (reads : Reads symbol word)
    (follows : expressionTable.canFollow below.head? symbol = true)
    (clears : Clears ⟨expressionTable, stream⟩ (symbol :: below) rest forks) :
    Takes ⟨expressionTable, stream⟩ below (word ++ rest) (forks + word.count plus) := by
  -- By induction on the word; what is below it and after it changes with its parts.
  induction reads generalizing below rest forks with
  | number =>
    intro first later h
    cases h
    exact Clears.reduce numberRule clears rfl (of_decide_eq_true rfl) rfl follows
      (forced_of_items (length_items_le num (by decide)))
  | @group inner reads ih =>
    intro first later h
    rw [List.cons_append, List.append_assoc, List.singleton_append, List.cons.injEq] at h
    obtain ⟨rfl, rfl⟩ := h
    -- The way is followed from its end: the group becomes a term, its last parenthesis is
    -- shifted, and the inner expression is taken after the first one.
    have closed : Clears ⟨expressionTable, stream⟩ (closing :: expr :: opening :: below) rest forks :=
      Clears.reduce groupRule clears rfl (of_decide_eq_true rfl) rfl follows
        (forced_of_items (length_items_le closing (by decide)))
    have ended : Clears ⟨expressionTable, stream⟩ (expr :: opening :: below) (closing :: rest) forks :=
      closed.shift groupRule [opening] rfl (of_decide_eq_true rfl) ⟨below, rfl⟩ (of_decide_eq_true rfl)
        (forced_of_admits (length_items_expr_le closing (by decide)))
    have opened : Clears ⟨expressionTable, stream⟩ (opening :: below) (inner ++ closing :: rest)
        (forks + inner.count plus) :=
      (ih rfl ended).clears reads groupRule [] rfl (by decide) List.nil_prefix (by decide)
    have count : (opening :: (inner ++ [closing])).count plus = inner.count plus := by
      rw [List.count_cons, List.count_append]
      rfl
    rw [count]
    exact opened
  | single _ ih =>
    exact ih (DecisionTable.canFollow_of_opens follows ⟨singleRule, of_decide_eq_true rfl, rfl, rfl⟩)
      (clears_single follows clears)
  | @sum left right _ last ih ih' =>
    -- After the fork the last term is taken, before it the plus and the sum so far.
    have added : Clears ⟨expressionTable, stream⟩ (plus :: expr :: below) (right ++ rest)
        (forks + 1 + right.count plus) :=
      (ih' (of_decide_eq_true rfl) (clears_sum follows clears)).clears last sumRule [expr] rfl (by decide)
        ⟨below, rfl⟩ (by decide)
    have summed : Clears ⟨expressionTable, stream⟩ (expr :: below) (plus :: (right ++ rest))
        (forks + 1 + right.count plus) :=
      added.shift sumRule [] rfl (of_decide_eq_true rfl) List.nil_prefix (of_decide_eq_true rfl)
        (forced_of_admits (length_items_expr_le plus (by decide)))
    have taken := ih follows summed
    have count : forks + (left ++ plus :: right).count plus =
        forks + 1 + right.count plus + left.count plus := by
      rw [List.count_append, List.count_cons_self]
      omega
    rw [List.append_assoc, List.cons_append, count]
    exact taken

/-! ## §3. Whole searches. -/

/-- An expression with nothing but the end-marker after it is accepted. -/
theorem clears_expr : Clears ⟨expressionTable, stream⟩ [expr] [eof] 0 := by
  have accepted : Clears ⟨expressionTable, stream⟩ [eof, expr] [] 0 :=
    clears_of_accept startRule (of_decide_eq_true rfl) rfl rfl
      (forced_of_items (length_items_le eof (by decide)))
  exact accepted.shift startRule [] rfl (of_decide_eq_true rfl) List.nil_prefix (of_decide_eq_true rfl)
    (forced_of_admits (length_items_expr_le eof (by decide)))

variable {tokens : List ExprSymbol}

theorem typed_of_kinds (letters : ∀ token ∈ tokens, token ∈ [num, plus, opening, closing])
    (kinds : stream.kinds = tokens ++ [eof]) : Typed ⟨expressionTable, stream⟩ where
  lhs := customary_expressionRules.lhs
  token := by
    intro lexeme mem
    have terminals : ∀ token ∈ [num, plus, opening, closing] ++ [eof],
        GrammarSymbol.isTerminal token = true := by
      decide
    have kind : lexeme.kind ∈ tokens ++ [eof] := by
      rw [← kinds]
      exact List.mem_map.2 ⟨lexeme, mem, rfl⟩
    exact terminals _ (List.mem_append.2 ((List.mem_append.1 kind).imp_left (letters _)))

/-- The search over the tokens of an expression forks once for each plus. -/
theorem succeedsOnce_start (typed : Typed ⟨expressionTable, stream⟩) (kinds : stream.kinds = tokens ++ [eof])
    (reads : Reads expr tokens) :
    (machine ⟨expressionTable, stream⟩).SucceedsOnce (start ⟨expressionTable, stream⟩) (tokens.count plus) := by
  have takes : Takes ⟨expressionTable, stream⟩ [] (tokens ++ [eof]) (0 + tokens.count plus) :=
    clears_of_reads reads rfl clears_expr
  rw [Nat.zero_add] at takes
  obtain ⟨first, rest, same, _⟩ := reads.exists_cons
  have whole : tokens ++ [eof] = first :: (rest ++ [eof]) := by rw [same, List.cons_append]
  exact takes first _ whole _ (displays_start typed (kinds.trans whole))

/-- The search over other tokens comes to its end without an accepted result. -/
theorem exists_collects_of_other (typed : Typed ⟨expressionTable, stream⟩)
    (kinds : stream.kinds = tokens ++ [eof]) (other : ¬Reads expr tokens) (deduplicate : Bool) :
    ∃ results final, Search.Collects (machine ⟨expressionTable, stream⟩) { deduplicate } .initial results final ∧
      acceptedOf results = [] := by
  obtain ⟨results, final, enough, collected, _, sound⟩ :=
    exists_collect_of_customary customary_expressionRules typed { deduplicate } rfl
  refine ⟨_, final, ⟨enough, collected enough (Nat.le_refl enough)⟩, ?_⟩
  refine List.filter_eq_nil_iff.2 fun result mem accepted => other ?_
  obtain ⟨tree, _, parse⟩ :=
    sound result (Search.mem_of_mem_reported mem) (Option.isNone_iff_eq_none.1 accepted)
  exact reads_of_isParse kinds typed.token parse

end Problem

/-- Whatever numbers, pluses and parentheses come before the end-marker, the search ends.
The verdict is an acceptance if the tokens are an expression and a rejection if they are
not.  For an expression there are as many forks as there are pluses, one branch more, and
one accepted result. -/
theorem expressions_recognised {table : DecisionTable ExprSymbol}
    (built : DecisionTable.build expressionRules = .ok table) {stream : TokenStream ExprSymbol}
    {tokens : List ExprSymbol} (letters : ∀ token ∈ tokens, token ∈ [num, plus, opening, closing])
    (kinds : stream.kinds = tokens ++ [eof]) (deduplicate : Bool) :
    ∃ results final enough,
      (∀ fuel, enough ≤ fuel →
        Search.collect? (Problem.machine ⟨table, stream⟩) { deduplicate } fuel .initial = some (results, final) ∧
        Search.verdict? (Problem.machine ⟨table, stream⟩) { deduplicate } fuel .initial =
          some (Verdict.ofResults results)) ∧
      (Verdict.ofResults results).isAccepted = isExpression tokens ∧
      (Verdict.ofResults results).isRejected = !isExpression tokens ∧
      (Verdict.ofResults results).isAmbiguous = false ∧
      (isExpression tokens = true →
        final.pending = [] ∧ final.forks = tokens.count plus ∧ final.explored = tokens.count plus + 1 ∧
          (results.filter ParseResult.isAccepted).length = 1) := by
  cases build_expressionRules.symm.trans built
  have typed := Problem.typed_of_kinds letters kinds
  -- An expression is found by the search that succeeds once; a result for other tokens would be
  -- a parse tree, and its leaves an expression.
  by_cases reads : Reads expr tokens
  · have accepts : isExpression tokens = true := isExpression_iff.2 reads
    obtain ⟨results, final, tree, collects, pending, forks, explored, sole⟩ :=
      Search.exists_collects_of_succeedsOnce (Problem.machine_lawful ⟨expressionTable, stream⟩) deduplicate
        (Problem.succeedsOnce_start typed kinds reads)
    obtain ⟨enough, eventually⟩ := collects.eventually
    refine ⟨results, final, enough, eventually, ?_⟩
    rw [Verdict.ofResults_of_acceptedOf sole, accepts]
    exact ⟨rfl, rfl, rfl, fun _ => ⟨pending, forks, explored, congrArg List.length sole⟩⟩
  · have rejects : isExpression tokens = false := Bool.eq_false_iff.2 (mt isExpression_iff.1 reads)
    obtain ⟨results, final, collects, none⟩ := Problem.exists_collects_of_other typed kinds reads deduplicate
    obtain ⟨errors, rejected⟩ := Verdict.ofResults_of_acceptedOf_nil none
    obtain ⟨enough, eventually⟩ := collects.eventually
    refine ⟨results, final, enough, eventually, ?_⟩
    rw [rejected, rejects]
    exact ⟨rfl, rfl, rfl, fun accepts => absurd accepts Bool.false_ne_true⟩

/-- The tokens `( n + n ) + n` and the end-marker. -/
def groupStream : TokenStream ExprSymbol :=
  .ofKinds [opening, num, plus, num, closing, plus, num, eof]

/-- The sum of a sum and a number is accepted, with two forks and three branches. -/
theorem expressions_recognised_group :
    ∃ results final enough,
      (∀ fuel, enough ≤ fuel →
        Search.collect? (Problem.machine ⟨expressionTable, groupStream⟩) {} fuel .initial =
          some (results, final)) ∧
      (Verdict.ofResults results).isAccepted = true ∧ final.forks = 2 ∧ final.explored = 3 := by
  have expression : isExpression [opening, num, plus, num, closing, plus, num] = true :=
    isExpression_iff.2 (.sum (.single (.group (.sum (.single .number) .number))) .number)
  have letters : ∀ token ∈ [opening, num, plus, num, closing, plus, num],
      token ∈ [num, plus, opening, closing] := by
    decide
  have kinds : groupStream.kinds = [opening, num, plus, num, closing, plus, num] ++ [eof] := rfl
  obtain ⟨results, final, enough, collected, accepted, _, _, counted⟩ :=
    expressions_recognised build_expressionRules letters kinds false
  obtain ⟨_, forks, explored, _⟩ := counted expression
  refine ⟨results, final, enough, fun fuel more => (collected fuel more).1, ?_, forks, explored⟩
  rw [accepted, expression]

end ShiftReduce
