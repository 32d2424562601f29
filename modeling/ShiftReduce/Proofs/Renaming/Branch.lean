/-
  ShiftReduce.Proofs.Renaming.Branch
  ────────────────────────────────
  **RENAMED BRANCHES MAKE RENAMED MOVES.**

  A branch is renamed with its stack, its failure and its record.  Every
  operation on branches asks of symbols only whether they are equal, whether
  they end the input and what the table knows about them, so it commutes with
  renaming.

  Main statements: `Problem.apply_rename` and `Problem.start_rename`.
-/
import ShiftReduce.Proofs.Branch.Transition
import ShiftReduce.Proofs.Renaming.Grammar
import ShiftReduce.Proofs.Renaming.Results

namespace ShiftReduce

variable {S T : Type} [GrammarSymbol S] [GrammarSymbol T] (f : Renaming S T)

/-! ## §1. Branches. -/

/-- The record with its symbols renamed; what was expected is listed in the new order. -/
def Diagnostics.rename (diagnostics : Diagnostics S) : Diagnostics T :=
  { phase := diagnostics.phase
    considered := diagnostics.considered.map (Item.rename f)
    expected := (SymbolSet.ofList (diagnostics.expected.map f)).toList
    actual := diagnostics.actual.map f }

namespace Branch

/-- The branch with its stack, its failure and its record renamed. -/
def rename (branch : Branch S) : Branch T :=
  { cursor := branch.cursor
    stack := branch.stack.map (Token.rename f)
    steps := branch.steps
    done := branch.done
    error := branch.error.map (ParseError.rename f)
    diagnostics := branch.diagnostics.rename f }

@[simp]
theorem rename_blank : (blank : Branch S).rename f = blank := rfl

variable (branch : Branch S)

@[simp]
theorem isOver_rename : (branch.rename f).isOver = branch.isOver := by
  unfold isOver
  exact congrArg (branch.done || ·) Option.isSome_map

@[simp]
theorem stackKinds_rename : (branch.rename f).stackKinds = branch.stackKinds.map f := by
  unfold stackKinds
  show ((branch.stack.map (Token.rename f)).toList.map Token.kind) = _
  rw [UndoStack.toList_map, Token.map_kind_rename]

@[simp]
theorem topPosition?_rename : (branch.rename f).topPosition? = branch.topPosition? := by
  unfold topPosition?
  show (branch.stack.map (Token.rename f)).peek?.map Token.position = _
  rw [UndoStack.peek?_map, Token.position_found_rename]

@[simp]
theorem result_rename : (branch.rename f).result = branch.result.rename f := by
  unfold result ParseResult.rename
  show ParseResult.mk ((branch.stack.map (Token.rename f)).drain.map Token.erase) _ = _
  rw [UndoStack.drain_map, List.map_map, List.map_map]
  congr 1
  exact List.map_congr_left fun token _ => token.erase_rename f

theorem fail_rename (error : ParseError S) :
    (branch.rename f).fail (error.rename f) = (branch.fail error).rename f := by
  unfold fail rename Diagnostics.rename
  simp only [ParseError.rename, ErrorKind.expected_rename, ErrorKind.actual_rename, Option.map_or,
    Option.map_some]

theorem interrupt_rename : (branch.rename f).interrupt = branch.interrupt.rename f := by
  unfold interrupt
  rw [isOver_rename]
  split
  · rfl
  · show ((branch.enter .complete).rename f).fail
        (((branch.enter .complete).rename f).errorAt
          (.unfinishedParse ((branch.enter .complete).rename f).stackKinds)
          ((branch.enter .complete).rename f).topPosition?) = _
    rw [stackKinds_rename, topPosition?_rename, ← fail_rename]
    rfl

end Branch

/-! ## §2. Attempts. -/

namespace Attempt

/-- The attempt with its branch and its failure renamed. -/
def rename (attempt : Attempt S) : Attempt T :=
  { branch := attempt.branch.rename f
    error := attempt.error.map (ParseError.rename f) }

/-- Operations in sequence commute with renaming if each of them does. -/
theorem andThen_rename (attempt : Attempt S) {next : Branch S → Attempt S} {next' : Branch T → Attempt T}
    (same : ∀ branch, next' (branch.rename f) = (next branch).rename f) :
    (attempt.rename f).andThen next' = (attempt.andThen next).rename f := by
  obtain ⟨branch, error⟩ := attempt
  cases error with
  | none => exact same branch
  | some error => rfl

end Attempt

/-! ## §3. Problems and moves. -/

/-- The move along the renamed item. -/
def Move.rename (move : Move S) : Move T :=
  { item := move.item.rename f
    hint := move.hint.map f }

theorem Move.ofItem_rename (item : Item S) : ofItem (item.rename f) = (ofItem item).rename f := by
  rw [ofItem, Item.next?_rename]
  rfl

variable [DecidableEq S] [DecidableEq T]

/-- The renamed stream, to be parsed by the renamed table. -/
def Problem.rename (problem : Problem S) : Problem T :=
  { table := problem.table.rename f
    stream := problem.stream.rename f }

/-- The same symbols are popped, and the pop that fails is the same one. -/
theorem popSymbols_rename (symbols : List S) (stack : UndoStack (Token S)) :
    popSymbols (symbols.map f) (stack.map (Token.rename f)) =
      ((popSymbols symbols stack).1.map (Token.rename f),
        (popSymbols symbols stack).2.map fun refused => (f refused.1, refused.2.map (Token.rename f))) := by
  induction symbols generalizing stack with
  | nil => rfl
  | cons symbol rest ih =>
    rw [List.map_cons, popSymbols, popSymbols, UndoStack.pop?_map]
    cases stack.pop? with
    | none => rfl
    | some popped =>
      obtain ⟨top, below⟩ := popped
      dsimp only [Option.map_some]
      rw [Token.kind_rename]
      by_cases agrees : top.kind = symbol
      · rw [if_pos (congrArg f agrees), if_pos agrees, ih]
      · rw [if_neg (mt f.apply_eq_apply.1 agrees), if_neg agrees]
        rfl

/-! ## §4. Making moves. -/

namespace Problem

variable (problem : Problem S) (branch : Branch S)

@[simp]
theorem isSettled_rename : (problem.rename f).isSettled (branch.rename f) = problem.isSettled branch := by
  have left : (problem.rename f).stream.lexemes.drop (branch.rename f).cursor =
      (problem.stream.lexemes.drop branch.cursor).map (Lexeme.rename f) := List.map_drop.symm
  rw [isSettled, isSettled, left]
  cases problem.stream.lexemes.drop branch.cursor with
  | nil => rfl
  | cons last rest =>
    cases rest with
    | nil => exact f.isEndMarker_apply last.kind
    | cons _ _ => rfl

theorem checkConsumed_rename :
    (problem.rename f).checkConsumed (branch.rename f) = (problem.checkConsumed branch).rename f := by
  have next : (problem.rename f).stream.lexemes[(branch.rename f).cursor]? =
      problem.stream.lexemes[branch.cursor]?.map (Lexeme.rename f) := List.getElem?_map
  rw [checkConsumed, checkConsumed, next]
  cases problem.stream.lexemes[branch.cursor]? with
  | none => rfl
  | some lexeme => rfl

theorem shift_rename : (problem.rename f).shift (branch.rename f) = (problem.shift branch).rename f := by
  have next : (problem.rename f).stream.get? ((branch.rename f).enter .shift).cursor =
      (problem.stream.get? (branch.enter .shift).cursor).map (Token.rename f) :=
    problem.stream.get?_rename f branch.cursor
  rw [shift, shift, next]
  cases problem.stream.get? (branch.enter .shift).cursor with
  | none => rfl
  | some token => rfl

theorem contract_rename (rule : Rule S) :
    (problem.rename f).contract (rule.rename f) (branch.rename f) = (problem.contract rule branch).rename f := by
  have symbols : (rule.rename f).rhs.reverse = rule.rhs.reverse.map f := List.map_reverse.symm
  have stack : ((branch.rename f).enter .reduce).stack = (branch.enter .reduce).stack.map (Token.rename f) := rfl
  rw [contract, contract, symbols, stack, popSymbols_rename]
  obtain ⟨stack, refused⟩ := popSymbols rule.rhs.reverse (branch.enter .reduce).stack
  cases refused with
  | none =>
    have node : Token.reduce (f rule.lhs) (stack.commit.1.map (Token.rename f)).reverse =
        (Token.reduce rule.lhs stack.commit.1.reverse).rename f := by
      rw [← List.map_reverse, Token.rename_reduce]
    show Attempt.success { (branch.rename f).enter .reduce with
      stack := (stack.map (Token.rename f)).commit.2.push
        (Token.reduce (f rule.lhs) (stack.map (Token.rename f)).commit.1.reverse) } = _
    rw [UndoStack.commit_map, node]
    rfl
  | some refused =>
    -- The expected set is made by the table, the found symbol is read off the stack.
    obtain ⟨symbol, found⟩ := refused
    show Attempt.refusal { (branch.rename f).enter .reduce with stack := (stack.map (Token.rename f)).rollback }
      (.reductionMismatch (((problem.table.rename f).first (f symbol)).insert (f symbol))
        ((found.map (Token.rename f)).map Token.kind))
      ((found.map (Token.rename f)).map Token.position) = _
    rw [UndoStack.rollback_map, Token.kind_found_rename, Token.position_found_rename,
      DecisionTable.first_rename, ← SymbolSet.rename_insert]
    rfl

theorem checkAdjacency_rename :
    (problem.rename f).checkAdjacency (branch.rename f) = (problem.checkAdjacency branch).rename f := by
  have items : (branch.rename f).stack.items = branch.stack.items.map (Token.rename f) := rfl
  rw [checkAdjacency, checkAdjacency, items]
  cases branch.stack.items with
  | nil => rfl
  | cons top rest =>
    have below : (rest.map (Token.rename f)).head?.map Token.kind = (rest.head?.map Token.kind).map f := by
      rw [List.head?_map, Token.kind_found_rename]
    show (if (problem.table.rename f).canFollow ((rest.map (Token.rename f)).head?.map Token.kind)
        (top.rename f).kind then _ else
      Attempt.refusal _ (.noApplicableRule (some (top.rename f).kind)
        ((problem.table.rename f).followers ((rest.map (Token.rename f)).head?.map Token.kind)))
        (some (top.rename f).position)) =
      Attempt.rename f (if problem.table.canFollow (rest.head?.map Token.kind) top.kind then _ else _)
    rw [below, Token.kind_rename, Token.position_rename, DecisionTable.canFollow_rename,
      DecisionTable.followers_rename, apply_ite (Attempt.rename f)]
    rfl

theorem reduce_rename (rule : Rule S) :
    (problem.rename f).reduce (rule.rename f) (branch.rename f) = (problem.reduce rule branch).rename f := by
  rw [reduce, contract_rename, reduce]
  exact Attempt.andThen_rename f _ (problem.checkAdjacency_rename f)

theorem accept_rename (rule : Rule S) :
    (problem.rename f).accept (rule.rename f) (branch.rename f) = (problem.accept rule branch).rename f := by
  unfold accept
  show (((problem.rename f).checkConsumed ((branch.enter .accept).rename f)).andThen _).andThen _ = _
  rw [checkConsumed_rename, Attempt.andThen_rename f _ fun branch => problem.reduce_rename f branch rule]
  exact Attempt.andThen_rename f _ fun _ => rfl

theorem checkHint_rename (move : Move S) :
    checkHint (move.rename f) (branch.rename f) = (checkHint move branch).rename f := by
  obtain ⟨item, hint⟩ := move
  cases hint with
  | none => rfl
  | some expected =>
    have peeked : ((branch.rename f).enter .checkBranch).stack.peek? =
        (branch.enter .checkBranch).stack.peek?.map (Token.rename f) :=
      branch.stack.peek?_map (Token.rename f)
    show checkHint ⟨item.rename f, some (f expected)⟩ (branch.rename f) = _
    rw [checkHint, checkHint]
    dsimp only
    rw [peeked]
    cases (branch.enter .checkBranch).stack.peek? with
    | none => rfl
    | some top =>
      have same : (top.rename f).kind = f expected ∨ (top.rename f).kind ∈ (item.rename f).lookaheads ↔
          top.kind = expected ∨ top.kind ∈ item.lookaheads := by
        rw [Token.kind_rename]
        exact or_congr f.apply_eq_apply (SymbolSet.apply_mem_rename f)
      show (if (top.rename f).kind = f expected ∨ (top.rename f).kind ∈ (item.rename f).lookaheads then _ else
        Attempt.refusal _ (.hintMismatch _ (some (top.rename f).kind)) (some (top.rename f).position)) =
        Attempt.rename f (if top.kind = expected ∨ top.kind ∈ item.lookaheads then _ else _)
      by_cases fits : top.kind = expected ∨ top.kind ∈ item.lookaheads
      · rw [if_pos fits, if_pos (same.2 fits)]
        rfl
      · rw [if_neg fits, if_neg (mt same.1 fits), Token.kind_rename, Token.position_rename]
        rfl

/-- Each action commutes with renaming, and so does the look at the hint after it. -/
theorem step_rename (move : Move S) :
    (problem.rename f).step (move.rename f) (branch.rename f) = (problem.step move branch).rename f := by
  have hinted (branch : Branch S) :
      checkHint (move.rename f) (branch.rename f) = (checkHint move branch).rename f :=
    checkHint_rename f branch move
  obtain ⟨⟨rule, position, action, lookaheads⟩, hint⟩ := move
  cases action with
  | shift =>
    show ((problem.rename f).shift (branch.rename f)).andThen _ = _
    rw [shift_rename]
    exact Attempt.andThen_rename f _ hinted
  | reduce =>
    show ((problem.rename f).reduce (rule.rename f) (branch.rename f)).andThen _ = _
    rw [reduce_rename]
    exact Attempt.andThen_rename f _ hinted
  | accept =>
    show ((problem.rename f).accept (rule.rename f) (branch.rename f)).andThen _ = _
    rw [accept_rename]
    exact Attempt.andThen_rename f _ hinted

theorem complete_rename :
    (problem.rename f).complete (branch.rename f) = (problem.complete branch).rename f := by
  -- That the start symbol is alone is an equality of lists, which an injective map keeps.
  have alone : ((branch.rename f).stack.items.map Token.kind = [(problem.rename f).table.start]) ↔
      branch.stack.items.map Token.kind = [problem.table.start] := by
    show ((branch.stack.items.map (Token.rename f)).map Token.kind = [(problem.table.rename f).start]) ↔ _
    rw [Token.map_kind_rename, DecisionTable.start_rename, ← List.map_singleton]
    exact (List.map_injective_iff.2 f.injective).eq_iff
  have explicit : (problem.rename f).table.acceptsExplicitly = problem.table.acceptsExplicitly :=
    problem.table.acceptsExplicitly_rename f
  have size : (problem.rename f).stream.size = problem.stream.size := problem.stream.size_rename f
  unfold complete
  rw [Branch.isOver_rename, explicit, decide_eq_decide.2 alone, isSettled_rename, size,
    apply_ite (Branch.rename f), apply_ite (Branch.rename f)]
  rfl

/-- A renamed move takes a renamed branch to where the move takes the branch. -/
theorem apply_rename (move : Move S) :
    (problem.rename f).apply (move.rename f) (branch.rename f) = (problem.apply move branch).rename f := by
  cases herror : branch.error with
  | some error =>
    have failed : (branch.rename f).error = some (error.rename f) :=
      congrArg (Option.map (ParseError.rename f)) herror
    simp only [apply, herror, failed, Attempt.rename, Option.map_some]
  | none =>
    have alive : (branch.rename f).error = none := congrArg (Option.map (ParseError.rename f)) herror
    have found : counted (move.rename f) (branch.rename f) = (counted move branch).rename f := rfl
    rw [apply_eq _ _ alive, apply_eq _ _ herror, found, step_rename]
    obtain ⟨after, refused⟩ := problem.step move (counted move branch)
    cases refused with
    | none =>
      show Attempt.success ((problem.rename f).complete (after.rename f)) = _
      rw [complete_rename]
      rfl
    | some error =>
      show Attempt.mk ((after.rename f).fail (error.rename f)) (some (error.rename f)) = _
      rw [Branch.fail_rename]
      rfl

theorem start_rename : (problem.rename f).start = problem.start.rename f := by
  have shifted := problem.shift_rename f Branch.blank
  rw [Branch.rename_blank] at shifted
  unfold start
  rw [shifted]
  obtain ⟨branch, error⟩ := problem.shift Branch.blank
  cases error with
  | none => exact problem.complete_rename f branch
  | some error => exact branch.fail_rename f error

end Problem

end ShiftReduce
