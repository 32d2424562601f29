/-
  ShiftReduce.Proofs.Expressions.Language
  ────────────────────────────────
  **SUMS OF NUMBERS, WITH PARENTHESES.**

  An expression is a term, or an expression and a plus and a term, and a term is
  a number or an expression in parentheses.  There are two more ways to say so: the
  rules of a grammar, left-recursive as they are, and a recogniser that descends
  into terms and goes on, in a loop, as long as a plus comes next.

  Main statements: `isExpression_iff` (the recogniser accepts the expressions) and
  `reads_of_isParse` (what the leaves of a parse tree are).
-/
import ShiftReduce.Proofs.Completeness

namespace ShiftReduce

/-! ## §1. The grammar. -/

/-- The symbols of expressions. -/
inductive ExprSymbol where
  | eof
  | start
  | expr
  | term
  | plus
  | num
  | opening
  | closing
  deriving DecidableEq

namespace ExprSymbol

/-- The place of a symbol in the order. -/
def rank : ExprSymbol → Nat
  | eof => 0
  | start => 1
  | expr => 2
  | term => 3
  | plus => 4
  | num => 5
  | opening => 6
  | closing => 7

theorem eq_of_rank {a b : ExprSymbol} (h : a.rank = b.rank) : a = b := by
  cases a <;> cases b <;> simp_all [rank]

instance : Ord ExprSymbol where
  compare := compareOn rank

instance : Std.TransOrd ExprSymbol :=
  inferInstanceAs (Std.TransCmp (compareOn rank))

instance : Std.LawfulEqOrd ExprSymbol where
  compare_self := Std.ReflCmp.compare_self
  eq_of_compare h := eq_of_rank (Std.LawfulEqOrd.eq_of_compare h)

instance : GrammarSymbol ExprSymbol where
  isTerminal
    | start => false
    | expr => false
    | term => false
    | _ => true
  isEndMarker symbol := symbol = eof
  text
    | eof => "Eof"
    | start => "Start"
    | expr => "Expr"
    | term => "Term"
    | plus => "+"
    | num => "Num"
    | opening => "("
    | closing => ")"

end ExprSymbol

open ExprSymbol

/-- The rule `Start => Expr Eof`. -/
def startRule : Rule ExprSymbol := ⟨0, start, [expr, eof]⟩

/-- The rule `Expr => Expr + Term`. -/
def sumRule : Rule ExprSymbol := ⟨1, expr, [expr, plus, term]⟩

/-- The rule `Expr => Term`. -/
def singleRule : Rule ExprSymbol := ⟨2, expr, [term]⟩

/-- The rule `Term => Num`. -/
def numberRule : Rule ExprSymbol := ⟨3, term, [num]⟩

/-- The rule `Term => ( Expr )`. -/
def groupRule : Rule ExprSymbol := ⟨4, term, [opening, expr, closing]⟩

/-- The rules for expressions. -/
def expressionRules : List (Rule ExprSymbol) :=
  [startRule, sumRule, singleRule, numberRule, groupRule]

/-- The table of these rules. -/
def expressionTable : DecisionTable ExprSymbol :=
  .ofRuleSet ⟨expressionRules, by decide, by decide, by decide⟩

theorem build_expressionRules : DecisionTable.build expressionRules = .ok expressionTable :=
  expressionTable.build_rules

theorem customary_expressionRules : Customary expressionRules expressionTable.start where
  lhs := by decide
  acyclic := by
    intro symbol cycle
    -- Every link leads to a symbol of a higher rank, from `Expr` by way of `Term` to `Num`.
    have link : ∀ one other, Link expressionRules one other → one.rank < other.rank := by
      intro one other h
      obtain ⟨rule, hrule, rfl, hrhs⟩ := h
      simp only [expressionRules, List.mem_cons, List.not_mem_nil, or_false] at hrule
      rcases hrule with rfl | rfl | rfl | rfl | rfl
      · cases hrhs
      · cases hrhs
      · cases hrhs
        decide
      · cases hrhs
        decide
      · cases hrhs
    have rising : symbol.rank < symbol.rank := by
      refine Relation.TransGen.trans_induction_on (motive := fun {one other} _ => one.rank < other.rank)
        cycle ?_ ?_
      · intro one other h
        exact link one other h
      · intro one middle other _ _ first second
        exact Nat.lt_trans first second
    exact Nat.lt_irrefl _ rising
  placed := .inl ⟨by decide, by decide⟩

/-! ## §2. Expressions and terms. -/

/-- The tokens that an expression or a term can consist of. -/
inductive Reads : ExprSymbol → List ExprSymbol → Prop where
  | number : Reads term [num]
  | group {tokens : List ExprSymbol} (inner : Reads expr tokens) :
      Reads term (opening :: (tokens ++ [closing]))
  | single {tokens : List ExprSymbol} (sole : Reads term tokens) : Reads expr tokens
  | sum {left right : List ExprSymbol} (before : Reads expr left) (last : Reads term right) :
      Reads expr (left ++ plus :: right)

/-- Expressions begin as terms do, with a number or with a parenthesis. -/
theorem first_expr : expressionTable.rules.first expr = expressionTable.rules.first term := by
  decide

/-- No expression and no term is empty, and the table knows what they begin with. -/
theorem Reads.exists_cons {symbol : ExprSymbol} {tokens : List ExprSymbol} (reads : Reads symbol tokens) :
    ∃ first rest, tokens = first :: rest ∧ first ∈ expressionTable.rules.first symbol := by
  induction reads with
  | number => exact ⟨num, [], rfl, by decide⟩
  | group => exact ⟨opening, _, rfl, by decide⟩
  | single _ ih =>
    rw [first_expr]
    exact ih
  | @sum _ right _ _ ih _ =>
    obtain ⟨first, rest, rfl, opens⟩ := ih
    exact ⟨first, rest ++ plus :: right, rfl, opens⟩

/-! ## §3. The recogniser. -/

mutual

/-- The position after the expression at a position: a term, and the terms that are added to it. -/
def exprEnd? (tokens : List ExprSymbol) (pos : Nat) : Option {stop : Nat // pos < stop} :=
  match termEnd? tokens pos with
  | none => none
  | some ⟨stop, after⟩ =>
    (addendsEnd? tokens stop).map fun ⟨final, further⟩ => ⟨final, Nat.lt_of_lt_of_le after further⟩
termination_by (tokens.length - pos, 1)
decreasing_by
  · exact .right _ (by decide)
  · exact Prod.Lex.right' _ (by omega) (by decide)

/-- The position after as many terms, each of them with a plus before it, as there are. -/
def addendsEnd? (tokens : List ExprSymbol) (pos : Nat) : Option {stop : Nat // pos ≤ stop} :=
  if here : tokens[pos]? = some plus then
    match termEnd? tokens (pos + 1) with
    | none => none
    | some ⟨stop, after⟩ =>
      (addendsEnd? tokens stop).map fun ⟨final, further⟩ => ⟨final, by omega⟩
  else some ⟨pos, Nat.le_refl pos⟩
termination_by (tokens.length - pos, 0)
decreasing_by
  · have := (List.getElem?_eq_some_iff.1 here).1
    exact .left _ _ (by omega)
  · have := (List.getElem?_eq_some_iff.1 here).1
    exact .left _ _ (by omega)

/-- The position after the term at a position. -/
def termEnd? (tokens : List ExprSymbol) (pos : Nat) : Option {stop : Nat // pos < stop} :=
  match here : tokens[pos]? with
  | some num => some ⟨pos + 1, Nat.lt_succ_self pos⟩
  | some opening =>
    match exprEnd? tokens (pos + 1) with
    | none => none
    | some ⟨stop, after⟩ =>
      if tokens[stop]? = some closing then some ⟨stop + 1, by omega⟩ else none
  | _ => none
termination_by (tokens.length - pos, 0)
decreasing_by
  have := (List.getElem?_eq_some_iff.1 here).1
  exact .left _ _ (by omega)

end

/-- The tokens are an expression, up to the last one. -/
def isExpression (tokens : List ExprSymbol) : Bool :=
  (exprEnd? tokens 0).map Subtype.val = some tokens.length

variable {tokens : List ExprSymbol} {pos stop : Nat}

theorem exprEnd?_of_term (h : (termEnd? tokens pos).map Subtype.val = some stop) :
    (exprEnd? tokens pos).map Subtype.val = (addendsEnd? tokens stop).map Subtype.val := by
  obtain ⟨⟨_, after⟩, hterm, rfl⟩ := Option.map_eq_some_iff.1 h
  rw [exprEnd?, hterm]
  exact Option.map_map ..

theorem addendsEnd?_of_plus (here : tokens[pos]? = some plus)
    (h : (termEnd? tokens (pos + 1)).map Subtype.val = some stop) :
    (addendsEnd? tokens pos).map Subtype.val = (addendsEnd? tokens stop).map Subtype.val := by
  obtain ⟨⟨_, after⟩, hterm, rfl⟩ := Option.map_eq_some_iff.1 h
  rw [addendsEnd?, dif_pos here, hterm]
  exact Option.map_map ..

theorem addendsEnd?_of_other (other : tokens[pos]? ≠ some plus) :
    (addendsEnd? tokens pos).map Subtype.val = some pos := by
  rw [addendsEnd?, dif_neg other]
  rfl

theorem termEnd?_of_num (here : tokens[pos]? = some num) :
    (termEnd? tokens pos).map Subtype.val = some (pos + 1) := by
  rw [termEnd?]
  split
  · rfl
  · next h => cases here.symm.trans h
  · next h _ => exact absurd here h

theorem termEnd?_of_group (here : tokens[pos]? = some opening)
    (h : (exprEnd? tokens (pos + 1)).map Subtype.val = some stop) (closed : tokens[stop]? = some closing) :
    (termEnd? tokens pos).map Subtype.val = some (stop + 1) := by
  obtain ⟨⟨_, after⟩, hexpr, rfl⟩ := Option.map_eq_some_iff.1 h
  rw [termEnd?]
  split
  · next h => cases here.symm.trans h
  · rw [hexpr]
    exact congrArg (Option.map Subtype.val) (if_pos closed)
  · next _ h => exact absurd here h

/-- From the first position the recogniser comes to the second one: to the end of a
term, or to where it looks for what is added to an expression. -/
def Reaches (tokens : List ExprSymbol) : ExprSymbol → Nat → Nat → Prop
  | term, pos, stop => (termEnd? tokens pos).map Subtype.val = some stop
  | expr, pos, stop => (exprEnd? tokens pos).map Subtype.val = (addendsEnd? tokens stop).map Subtype.val
  | _, _, _ => True

/-- The recogniser comes to the end of every expression and of every term. -/
theorem Reads.reaches {symbol : ExprSymbol} {word rest : List ExprSymbol} (reads : Reads symbol word)
    (hdrop : tokens.drop pos = word ++ rest) : Reaches tokens symbol pos (pos + word.length) := by
  -- By induction on what is read; the parts of it are met at later positions, with more after them.
  induction reads generalizing pos rest with
  | number =>
    have here : tokens[pos]? = some num := by
      rw [← List.head?_drop, hdrop]
      rfl
    exact termEnd?_of_num here
  | @group inner _ ih =>
    have here : tokens[pos]? = some opening := by
      rw [← List.head?_drop, hdrop]
      rfl
    have within : tokens.drop (pos + 1) = inner ++ closing :: rest := by
      rw [← List.drop_drop, hdrop]
      simp
    have closed : tokens[pos + 1 + inner.length]? = some closing := by
      rw [← List.getElem?_drop, within]
      simp
    -- What comes after the inner expression is no plus, so nothing is added to it.
    have ends : (exprEnd? tokens (pos + 1)).map Subtype.val = some (pos + 1 + inner.length) :=
      (ih within).trans (addendsEnd?_of_other (by rw [closed]; simp))
    have length : pos + 1 + inner.length + 1 = pos + (opening :: (inner ++ [closing])).length := by
      simp only [List.length_cons, List.length_append, List.length_nil]
      omega
    rw [← length]
    exact termEnd?_of_group here ends closed
  | single _ ih => exact exprEnd?_of_term (ih hdrop)
  | @sum left right _ _ before last =>
    rw [List.append_assoc] at hdrop
    have next : tokens[pos + left.length]? = some plus := by
      rw [← List.getElem?_drop, hdrop]
      simp
    have beyond : tokens.drop (pos + left.length + 1) = right ++ rest := by
      rw [← List.drop_drop, ← List.drop_drop, hdrop]
      simp
    have length : pos + left.length + 1 + right.length = pos + (left ++ plus :: right).length := by
      simp only [List.length_cons, List.length_append]
      omega
    rw [← length]
    exact (before hdrop).trans (addendsEnd?_of_plus next (last beyond))

/-- What the recogniser passes over is an expression or a term, or makes a longer
expression of the one before it. -/
theorem reads_of_ends (tokens : List ExprSymbol) :
    (∀ pos stop after, exprEnd? tokens pos = some ⟨stop, after⟩ →
      ∃ word, Reads expr word ∧ tokens.drop pos = word ++ tokens.drop stop) ∧
    (∀ pos stop after, addendsEnd? tokens pos = some ⟨stop, after⟩ → ∀ before, Reads expr before →
      ∃ more, Reads expr (before ++ more) ∧ tokens.drop pos = more ++ tokens.drop stop) ∧
    (∀ pos stop after, termEnd? tokens pos = some ⟨stop, after⟩ →
      ∃ word, Reads term word ∧ tokens.drop pos = word ++ tokens.drop stop) := by
  have next {pos : Nat} {symbol : ExprSymbol} (here : tokens[pos]? = some symbol) :
      tokens.drop pos = symbol :: tokens.drop (pos + 1) := by
    obtain ⟨within, rfl⟩ := List.getElem?_eq_some_iff.1 here
    exact List.drop_eq_getElem_cons within
  -- The cases are those of the recogniser.  Where a part is missing it has no position to give;
  -- otherwise the parts it passes over, one after the other, are put together.
  apply exprEnd?.mutual_induct tokens
  case case1 =>
    intro pos missing _ stop after h
    rw [exprEnd?, missing] at h
    cases h
  case case2 =>
    intro pos middle within found term addends stop after h
    rw [exprEnd?, found] at h
    obtain ⟨⟨final, further⟩, hfinal, same⟩ := Option.map_eq_some_iff.1 h
    cases same
    obtain ⟨word, reads, hword⟩ := term middle within found
    obtain ⟨more, longer, hmore⟩ := addends stop further hfinal word (.single reads)
    exact ⟨word ++ more, longer, by rw [hword, hmore, List.append_assoc]⟩
  case case3 =>
    intro pos here missing _ stop after h
    rw [addendsEnd?, dif_pos here, missing] at h
    cases h
  case case4 =>
    intro pos here middle within found term addends stop after h before reads
    rw [addendsEnd?, dif_pos here, found] at h
    obtain ⟨⟨final, further⟩, hfinal, same⟩ := Option.map_eq_some_iff.1 h
    cases same
    obtain ⟨word, last, hword⟩ := term middle within found
    obtain ⟨more, longer, hmore⟩ := addends stop further hfinal (before ++ plus :: word) (.sum reads last)
    refine ⟨plus :: word ++ more, by rw [← List.append_assoc]; exact longer, ?_⟩
    simp only [next here, hword, hmore, List.cons_append, List.append_assoc]
  case case5 =>
    intro pos other stop after h before reads
    rw [addendsEnd?, dif_neg other] at h
    cases h
    exact ⟨[], by rw [List.append_nil]; exact reads, rfl⟩
  case case6 =>
    intro pos here stop after h
    have ends := termEnd?_of_num here
    rw [h] at ends
    cases ends
    exact ⟨[num], .number, next here⟩
  case case7 =>
    intro pos here missing _ stop after h
    rw [termEnd?] at h
    split at h <;> simp_all
  case case8 =>
    intro pos here middle within found closed inner stop after h
    -- The position after the parenthesis is the one that the recogniser gives.
    have ends := termEnd?_of_group here (by rw [found]; rfl) closed
    rw [h] at ends
    cases ends
    obtain ⟨word, reads, hword⟩ := inner middle within found
    refine ⟨opening :: (word ++ [closing]), .group reads, ?_⟩
    rw [next here, hword, next closed]
    simp
  case case9 =>
    intro pos here middle within found other _ stop after h
    rw [termEnd?] at h
    split at h <;> simp_all
  case case10 =>
    intro pos number group stop after h
    rw [termEnd?] at h
    split at h <;> simp_all

/-- The recogniser accepts exactly the expressions. -/
theorem isExpression_iff {tokens : List ExprSymbol} : isExpression tokens = true ↔ Reads expr tokens := by
  rw [isExpression, decide_eq_true_iff]
  constructor
  · intro h
    obtain ⟨⟨_, after⟩, ends, rfl⟩ := Option.map_eq_some_iff.1 h
    obtain ⟨word, reads, same⟩ := (reads_of_ends tokens).1 0 _ after ends
    rw [List.drop_zero, List.drop_length, List.append_nil] at same
    rw [same]
    exact reads
  · intro reads
    have whole : tokens.drop 0 = tokens ++ [] := (List.append_nil tokens).symm
    have ends := reads.reaches whole
    rw [Nat.zero_add] at ends
    exact ends.trans (addendsEnd?_of_other (by simp))

/-! ## §4. The leaves of parse trees. -/

/-- What the leaves below a symbol can be: an expression and the end-marker below the
start symbol, and a terminal itself. -/
def Yields : ExprSymbol → List ExprSymbol → Prop
  | start, word => ∃ tokens, Reads expr tokens ∧ word = tokens ++ [eof]
  | expr, word => Reads expr word
  | term, word => Reads term word
  | symbol, word => word = [symbol]

/-- Each rule makes of what its symbols yield something that its left-hand side yields. -/
theorem yields_of_rule {rule : Rule ExprSymbol} (hrule : rule ∈ expressionRules)
    {words : List (List ExprSymbol)} (h : List.Forall₂ Yields rule.rhs words) :
    Yields rule.lhs words.flatten := by
  simp only [expressionRules, List.mem_cons, List.not_mem_nil, or_false] at hrule
  -- One case for each rule, with one word for each symbol on its right-hand side.
  rcases hrule with rfl | rfl | rfl | rfl | rfl
  · obtain _ | ⟨inner, _ | ⟨rfl, _ | _⟩⟩ := h
    exact ⟨_, inner, rfl⟩
  · obtain _ | ⟨before, _ | ⟨rfl, _ | ⟨last, _ | _⟩⟩⟩ := h
    have sum := Reads.sum before last
    show Reads expr (_ ++ ([plus] ++ (_ ++ [])))
    rw [List.append_nil]
    exact sum
  · obtain _ | ⟨sole, _ | _⟩ := h
    have single := Reads.single sole
    show Reads expr (_ ++ [])
    rw [List.append_nil]
    exact single
  · obtain _ | ⟨rfl, _ | _⟩ := h
    exact Reads.number
  · obtain _ | ⟨rfl, _ | ⟨inner, _ | ⟨rfl, _ | _⟩⟩⟩ := h
    exact Reads.group inner

/-- The leaves of a parse tree are an expression and the end-marker. -/
theorem reads_of_isParse {stream : TokenStream ExprSymbol} {tokens : List ExprSymbol}
    {tree : ParseTree ExprSymbol} (kinds : stream.kinds = tokens ++ [eof])
    (terminals : ∀ lexeme ∈ stream.lexemes, GrammarSymbol.isTerminal lexeme.kind = true)
    (parse : Problem.IsParse ⟨expressionTable, stream⟩ tree) : Reads expr tokens := by
  have yield : tree.yield = stream.lexemes := parse.yield.trans (Problem.sentence_of_explicit rfl)
  have leaves : ∀ leaf ∈ tree.yield, Yields leaf.kind [leaf.kind] := by
    intro leaf mem
    rw [yield] at mem
    have terminal := terminals leaf mem
    cases hkind : leaf.kind <;> rw [hkind] at terminal <;> first | rfl | cases terminal
  have whole := parse.built.yields (fun _ hrule _ => yields_of_rule hrule) leaves
  rw [parse.kind, yield, show stream.lexemes.map Lexeme.kind = stream.kinds from rfl, kinds] at whole
  obtain ⟨_, reads, same⟩ := whole
  rw [List.append_inj_left' same rfl]
  exact reads

end ShiftReduce
