/-
  ShiftReduce.Proofs.ErrorPositions
  ────────────────────────────────
  **WHERE A FAILURE SAYS THAT IT HAS OCCURRED.**

  A failure that names a symbol which has been found says where: at a tree on
  the stack or at a token of the input.  One failure does not.  When no item that
  fits the stack admits the next token, the failure names that token, but the
  position it gives is the one right after that of the top of the stack.  The two
  agree only if the top begins right before the token.

  Main statement: `error_points_at_token`, and `foreseen_token_misplaced` for a
  failure whose position is that of another token.
-/
import ShiftReduce.Proofs.Branch.Failures
import ShiftReduce.Proofs.ExactPrediction

namespace ShiftReduce

variable {S : Type} [DecidableEq S] [GrammarSymbol S]

namespace Problem

variable {problem : Problem S} {branch before after : Branch S} {error : ParseError S}

/-! ## §1. Symbols and where they stand. -/

/-- A tree on the stack, or a token of the input, is of this kind and begins here. -/
def Shows (problem : Problem S) (branch : Branch S) (symbol : S) (position : Nat) : Prop :=
  (∃ tree ∈ branch.stack.items, tree.kind = symbol ∧ tree.position = position) ∨
    ∃ lexeme ∈ problem.stream.lexemes, lexeme.kind = symbol ∧ lexeme.position = position

instance (problem : Problem S) (branch : Branch S) (symbol : S) (position : Nat) :
    Decidable (problem.Shows branch symbol position) :=
  inferInstanceAs (Decidable ((∃ tree ∈ branch.stack.items, tree.kind = symbol ∧ tree.position = position) ∨
    ∃ lexeme ∈ problem.stream.lexemes, lexeme.kind = symbol ∧ lexeme.position = position))

/-- If the failure names a symbol that has been found and gives a position, then
that is where such a symbol stands. -/
def Points (problem : Problem S) (branch : Branch S) (error : ParseError S) : Prop :=
  ∀ symbol position, error.kind.actual = some symbol → error.position = some position →
    problem.Shows branch symbol position

/-- The failure names the next token, which begins elsewhere than it says: it
gives the place right after the beginning of the top of the stack. -/
def Foresees (problem : Problem S) (branch : Branch S) (error : ParseError S) : Prop :=
  ∃ top rest lexeme expected, branch.stack.items = top :: rest ∧
    problem.stream.lexemes[branch.cursor]? = some lexeme ∧ lexeme.position ≠ nextPosition top.position ∧
    error = ⟨.noApplicableRule (some lexeme.kind) expected, .predict, some (nextPosition top.position)⟩

/-- A failure that names no symbol points nowhere. -/
theorem points_of_actual (nothing : error.kind.actual = none) : problem.Points branch error := by
  intro symbol position actual
  rw [nothing] at actual
  cases actual

/-- A failure that describes a tree of the stack, or the lack of one, points at it. -/
theorem points_at_tree (found : Option (Token S))
    (shown : ∀ tree ∈ found, tree ∈ branch.stack.items) (actual : error.kind.actual = found.map Token.kind)
    (located : error.position = found.map Token.position) : problem.Points branch error := by
  intro symbol position hsymbol hposition
  rw [actual, Option.map_eq_some_iff] at hsymbol
  obtain ⟨tree, rfl, kind⟩ := hsymbol
  rw [located] at hposition
  exact .inl ⟨tree, shown tree rfl, kind, Option.some.inj hposition⟩

/-- A failure that describes a token of the input points at it. -/
theorem points_at_lexeme {lexeme : Lexeme S} {index : Nat}
    (left : problem.stream.lexemes[index]? = some lexeme) (actual : error.kind.actual = some lexeme.kind)
    (located : error.position = some lexeme.position) : problem.Points branch error := by
  intro symbol position hsymbol hposition
  exact .inr ⟨lexeme, List.mem_of_getElem? left, Option.some.inj (actual.symm.trans hsymbol),
    Option.some.inj (located.symm.trans hposition)⟩

/-! ## §2. Failures of moves and of predictions. -/

/-- Whichever way a move is refused, its failure points at a symbol. -/
theorem points_of_refuses {move : Move S} (refuses : problem.Refuses move before after error) :
    problem.Points after error := by
  cases refuses with
  | exhausted => exact points_of_actual rfl
  | @mismatched matched rest _ _ _ _ items =>
    -- What does not match is still on the stack, below the trees that did.
    refine points_at_tree rest.head? (fun tree top => ?_) rfl rfl
    show tree ∈ before.stack.items
    rw [items]
    exact List.mem_append_right matched (List.mem_of_head? top)
  | unconsumed _ left => exact points_at_lexeme left rfl rfl
  | @unseated children rest =>
    refine points_at_tree (some (Token.reduce move.item.rule.lhs children)) (fun tree top => ?_) rfl rfl
    cases top
    exact List.mem_cons_self
  | @unannounced trees =>
    exact points_at_tree trees.head? (fun tree top => List.mem_of_head? top) rfl rfl

/-- A prediction fails at the top of the stack, at a token that is left, or at
the next token as the top of the stack knows it. -/
theorem points_of_stuck (linked : problem.Linked branch.stack.items branch.cursor)
    (stuck : problem.Stuck branch error) :
    problem.Points branch error ∨ problem.Foresees branch error := by
  cases stuck with
  | bare => exact .inl (points_of_actual rfl)
  | unfinished => exact .inl (points_of_actual rfl)
  | @unfit top _ _ items =>
    refine .inl (points_at_tree (some top) (fun tree same => ?_) rfl rfl)
    cases same
    rw [items]
    exact List.mem_cons_self
  | unconsumed left => exact .inl (points_at_lexeme left rfl rfl)
  | @unforeseen top rest expected items =>
    -- The token that the top of the stack is linked to is the one at the cursor.
    rw [items] at linked
    rw [linked.lookaheadKind?]
    cases next : problem.stream.lexemes[branch.cursor]? with
    | none => exact .inl (points_of_actual rfl)
    | some lexeme =>
      by_cases adjacent : lexeme.position = nextPosition top.position
      · exact .inl (points_at_lexeme next rfl (congrArg some adjacent.symm))
      · exact .inr ⟨top, rest, lexeme, expected, items, next, adjacent, rfl⟩

end Problem

/-! ## §3. Failures of branches. -/

/-- However a branch has failed, the symbol that its failure names stands where
the failure says, unless it is a token that was foreseen. -/
theorem error_points_at_token {problem : Problem S} {branch : Branch S} {error : ParseError S}
    (reachable : problem.Reachable branch) (failed : branch.error = some error) :
    problem.Points branch error ∨ problem.Foresees branch error := by
  cases reachable.fails failed with
  | begun => exact .inl (Problem.points_of_actual rfl)
  | @looked before error earlier going stuck =>
    have unfinished := (Branch.isOver_eq_false_iff.1 going).1
    have linked := problem.linked_invariant.of_reachable earlier unfinished
    -- The stack and the cursor are as they were before the search for moves.
    obtain ⟨stack, cursor, _⟩ :=
      Branch.standing_eq_iff.1 (Problem.standing_nextMoves problem earlier.clean)
    unfold Problem.Points Problem.Shows Problem.Foresees
    rw [stack, cursor]
    exact Problem.points_of_stuck linked stuck
  | interrupted => exact .inl (Problem.points_of_actual rfl)
  | @moved _ after _ _ _ _ refuses =>
    have points : problem.Points after error := Problem.points_of_refuses refuses
    exact .inl points

/-- The tokens `a a d`, and the rules `S => A b`, `S => A c` and `A => a a`. -/
def wideProblem : Problem Symbol where
  table := .ofRuleSet
    ⟨[⟨0, .nonTerminal "S", [.nonTerminal "A", .terminal "b"]⟩,
      ⟨1, .nonTerminal "S", [.nonTerminal "A", .terminal "c"]⟩,
      ⟨2, .nonTerminal "A", [.terminal "a", .terminal "a"]⟩], by decide, by decide, by decide⟩
  stream := .ofKinds [.terminal "a", .terminal "a", .terminal "d"]

/-- The moves that follow the items of `A => a a` one after the other, and the
shift that `S => A b` calls for then. -/
def wideMoves : List (Move Symbol) :=
  [(2, 0), (2, 1), (0, 0)].filterMap fun place =>
    wideProblem.table.rules.toList[place.1]?.map fun rule =>
      .ofItem (wideProblem.table.rules.itemAt rule place.2)

/-- After the shift, the failure gives the position of the token that it names. -/
theorem error_points_at_token_wide :
    ∃ branch error, wideProblem.Reachable branch ∧ branch.error = some error ∧
      error.message = "[check-branch] branch check failed, expecting b, got d" ∧
      error.position = some 2 ∧ wideProblem.Shows branch (.terminal "d") 2 := by
  have known : ∀ move ∈ wideMoves, wideProblem.Knows move := by
    decide +kernel
  have reachable := Problem.Reachable.replay known
  generalize hbranch : wideProblem.machine.replay wideMoves = branch at reachable
  have failed : branch.error =
      some ⟨.hintMismatch (.terminal "b") (some (.terminal "d")), .checkBranch, some 2⟩ := by
    subst hbranch
    decide +kernel
  refine ⟨branch, _, reachable, failed, by decide +kernel, rfl, ?_⟩
  rcases error_points_at_token reachable failed with points | ⟨_, _, _, _, _, _, _, other⟩
  · exact points _ _ rfl rfl
  · cases other

/-- Before it, looking for moves fails with the position of the second `a`, where
no `d` stands. -/
theorem foreseen_token_misplaced :
    let before := wideProblem.machine.replay (wideMoves.take 2)
    let branch := (wideProblem.nextMoves before).2
    wideProblem.Reachable branch ∧
      branch.error.map ParseError.message = some "[predict] no applicable rule for d, expecting b, c" ∧
      (branch.error.bind fun error => error.kind.actual) = some (.terminal "d") ∧
      (branch.error.bind ParseError.position) = some 1 ∧
      ¬wideProblem.Shows branch (.terminal "d") 1 := by
  intro before branch
  have known : ∀ move ∈ wideMoves.take 2, wideProblem.Knows move := by
    decide +kernel
  have reachable : wideProblem.Reachable before := .replay known
  exact ⟨reachable.looked, by decide +kernel, by decide +kernel, by decide +kernel, by decide +kernel⟩

end ShiftReduce
